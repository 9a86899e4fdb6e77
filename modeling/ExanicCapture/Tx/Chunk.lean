/-
# Tx.Chunk -- a transmit chunk in the card's memory

The layout of `struct tx_chunk` and of `struct tx_payload_metadata`, and the stores by
which each call fills a chunk in.  `readChunk` is what the card finds at an address.
For a call that sends, that is what the call hands over (`Request.read_message`),
whatever was in memory before.
-/
import ExanicCapture.Tx.Buffer
import ExanicCapture.Tx.Checksum
import Mathlib.Data.Fintype.Pi

namespace ExanicCapture.Tx

set_option autoImplicit false

open Theory Theory.Memory

/-! ## Chunks in memory -/

/-- A 16-bit integer as the host stores it. -/
def halfword (n : UInt16) : List UInt8 := ByteOrder.little.bytes 2 n.toNat

/-- The 16-bit integer at an address. -/
def readHalfword (mem : ℕ → UInt8) (address : ℕ) : UInt16 :=
  .ofNat (ByteOrder.little.value (slice mem address 2))

/-- `struct tx_chunk` with `length` bytes of payload. -/
structure TxChunk where
  feedbackId : UInt16
  feedbackSlotIndex : UInt16
  length : UInt16
  type : UInt8
  flags : UInt8
  payload : List UInt8

/-- The chunk at an address. -/
def readChunk (mem : ℕ → UInt8) (address : ℕ) : TxChunk where
  feedbackId := readHalfword mem address
  feedbackSlotIndex := readHalfword mem (address + 2)
  length := readHalfword mem (address + 4)
  type := mem (address + 6)
  flags := mem (address + 7)
  payload := slice mem (address + 8) (readHalfword mem (address + 4)).toNat

/-- What a chunk tells the card to send. -/
structure Message where
  type : UInt8
  flags : UInt8
  data : List UInt8
deriving DecidableEq

/-- "The actual data to transmit may not begin at the beginning of the payload due to
padding." -/
def TxChunk.message (c : TxChunk) : Message where
  type := c.type
  flags := c.flags
  data := c.payload.drop (exanicPayloadPaddingBytes c.type)

/-- The feedback fields of a chunk. -/
def feedbackStores (chunk : ℕ) (id slot : UInt16) : List (ℕ × List UInt8) :=
  [(chunk, halfword id), (chunk + 2, halfword slot)]

/-! ## Calls -/

/-- `struct tx_payload_metadata` as `exanic_transmit_payload` fills it in; `reserved` is
what `_reserved` happens to hold. -/
def txPayloadMetadata (connectionId : UInt16) (payload : List UInt8) (reserved : Fin 14 → UInt8) :
    List UInt8 :=
  ByteOrder.big.bytes 2 (csum payload 0).toNat ++ halfword connectionId ++ List.ofFn reserved

/-- The calls that prepare a chunk. -/
inductive Request where
  | transmitFrame (frame : List UInt8) (warm : Bool)
  | transmitPayload (connectionId : UInt16) (type : UInt8) (payload : List UInt8)
      (reserved : Fin 14 → UInt8)
  | beginFrame (frameSize : ℕ)
  | beginPayload (connectionId : UInt16) (type : UInt8) (payloadSize : ℕ)
deriving DecidableEq

/-- `sizeof(struct tx_payload_metadata)`. -/
def sizeofTxPayloadMetadata : ℕ := 18

namespace Request

def type : Request → UInt8
  | transmitFrame _ _ | beginFrame _ => exanicTxTypeRaw
  | transmitPayload _ type _ _ | beginPayload _ type _ => type

/-- The bytes behind the padding. -/
def size : Request → ℕ
  | transmitFrame frame _ => frame.length
  | transmitPayload _ _ payload _ => sizeofTxPayloadMetadata + payload.length
  | beginFrame frameSize => frameSize
  | beginPayload _ _ payloadSize => sizeofTxPayloadMetadata + payloadSize

/-- `length`. -/
def length (r : Request) : ℕ := exanicPayloadPaddingBytes r.type + r.size

/-- `chunk_size`. -/
def chunkSize (r : Request) : ℕ := sizeofTxChunk + r.length

/-- `EXA_FRAME_WARM`. -/
def warm : Request → Bool
  | transmitFrame _ warm => warm
  | _ => false

/-- Whether the call returns the chunk to the caller instead of sending it. -/
def begins : Request → Bool
  | beginFrame _ | beginPayload _ _ _ => true
  | _ => false

/-- The three fields every call sets. -/
def header (r : Request) (chunk : ℕ) : List (ℕ × List UInt8) :=
  [(chunk + 4, halfword (.ofNat r.length)), (chunk + 6, [r.type]), (chunk + 7, [0])]

/-- What is stored behind the header. -/
def body (r : Request) (chunk : ℕ) : List (ℕ × List UInt8) :=
  let data := chunk + 8 + exanicPayloadPaddingBytes r.type
  match r with
  | transmitFrame frame _ => [(chunk + 8, [0, 0]), (data, frame)]
  | transmitPayload connectionId _ payload reserved =>
      [(data, txPayloadMetadata connectionId payload reserved),
        (data + sizeofTxPayloadMetadata, payload)]
  | beginFrame _ => [(chunk + 8, [0, 0])]
  | beginPayload connectionId _ _ => [(data + 2, halfword connectionId)]

def stores (r : Request) (chunk : ℕ) : List (ℕ × List UInt8) := r.header chunk ++ r.body chunk

/-- The bytes the caller wants to send. -/
def data : Request → List UInt8
  | transmitFrame frame _ => frame
  | transmitPayload connectionId _ payload reserved =>
      txPayloadMetadata connectionId payload reserved ++ payload
  | _ => []

/-- What a call that sends hands over.  `chunk->length` has 16 bits, so of a chunk
longer than that only as much is sent as these bits count. -/
def message (r : Request) : Message where
  type := r.type
  flags := 0
  data := r.data.take (r.length % 2 ^ 16 - exanicPayloadPaddingBytes r.type)

end Request

/-- The calls that send a prepared chunk. -/
inductive End where
  | frame (frameSize : ℕ)
  | payload (type : UInt8) (payloadSize : ℕ)

/-- The new length, unless the size is 0. -/
def End.length : End → Option ℕ
  | frame frameSize =>
      if frameSize ≠ 0 then some (exanicPayloadPaddingBytes exanicTxTypeRaw + frameSize) else none
  | payload type payloadSize =>
      if payloadSize ≠ 0 then
        some (exanicPayloadPaddingBytes type + sizeofTxPayloadMetadata + payloadSize)
      else none

/-- `chunk_size`. -/
def End.chunkSize (e : End) (preparedChunkSize : ℕ) : ℕ :=
  match e.length with
  | some length => sizeofTxChunk + length
  | none => preparedChunkSize

def End.stores (e : End) (chunk : ℕ) : List (ℕ × List UInt8) :=
  match e.length with
  | some length => [(chunk + 4, halfword (.ofNat length))]
  | none => []

/-! ## Reading chunks -/

theorem halfword_length (n : UInt16) : (halfword n).length = 2 := ByteOrder.bytes_length _ _ _

theorem readHalfword_congr {mem mem' : ℕ → UInt8} {address : ℕ}
    (same : ∀ i, address ≤ i → i < address + 2 → mem' i = mem i) :
    readHalfword mem' address = readHalfword mem address := by
  rw [readHalfword, readHalfword, slice_congr same]

theorem readHalfword_copy_self (mem : ℕ → UInt8) (address : ℕ) (n : UInt16) :
    readHalfword (copy mem address (halfword n)) address = n := by
  have := n.toNat_lt
  rw [readHalfword, slice_copy_self mem address _ (halfword_length n), halfword,
    ByteOrder.value_bytes, Nat.mod_eq_of_lt (by omega), UInt16.ofNat_toNat]

theorem readHalfword_copy_apart (mem : ℕ → UInt8) {address at' : ℕ} {block : List UInt8}
    (apart : address + 2 ≤ at' ∨ at' + block.length ≤ address) :
    readHalfword (copy mem at' block) address = readHalfword mem address := by
  rw [readHalfword, readHalfword, slice_copy_apart mem apart]

/-- A chunk is read from its own bytes. -/
theorem readChunk_congr {mem mem' : ℕ → UInt8} {address : ℕ}
    (same : ∀ i, address ≤ i → i < address + 8 + (readChunk mem address).length.toNat →
      mem' i = mem i) : readChunk mem' address = readChunk mem address := by
  have id : readHalfword mem' address = readHalfword mem address :=
    readHalfword_congr fun i low high => same i low (by omega)
  have slot : readHalfword mem' (address + 2) = readHalfword mem (address + 2) :=
    readHalfword_congr fun i low high => same i (by omega) (by omega)
  have length : readHalfword mem' (address + 4) = readHalfword mem (address + 4) :=
    readHalfword_congr fun i low high => same i (by omega) (by omega)
  have payload : slice mem' (address + 8) (readHalfword mem (address + 4)).toNat =
      slice mem (address + 8) (readHalfword mem (address + 4)).toNat :=
    slice_congr fun i low high => same i (by omega) high
  simp only [readChunk, id, slot, length, payload, same (address + 6) (by omega) (by omega),
    same (address + 7) (by omega) (by omega)]

theorem feedbackStores_of_ge (mem : ℕ → UInt8) {chunk i : ℕ} (id slot : UInt16)
    (behind : chunk + 4 ≤ i) : copyAll mem (feedbackStores chunk id slot) i = mem i := by
  rw [feedbackStores, copyAll_cons, copyAll_cons, copyAll_nil,
    copy_of_ge _ (by rw [halfword_length]; omega), copy_of_ge _ (by rw [halfword_length]; omega)]

/-- The feedback fields are set and everything else is kept. -/
theorem readChunk_feedbackStores (mem : ℕ → UInt8) (chunk : ℕ) (id slot : UInt16) :
    readChunk (copyAll mem (feedbackStores chunk id slot)) chunk =
      { readChunk mem chunk with feedbackId := id, feedbackSlotIndex := slot } := by
  have later : ∀ i, chunk + 4 ≤ i → copyAll mem (feedbackStores chunk id slot) i = mem i :=
    fun i => feedbackStores_of_ge mem id slot
  have length : readHalfword (copyAll mem (feedbackStores chunk id slot)) (chunk + 4) =
      readHalfword mem (chunk + 4) := readHalfword_congr fun i low _ => later i low
  have payload : slice (copyAll mem (feedbackStores chunk id slot)) (chunk + 8)
      (readHalfword mem (chunk + 4)).toNat =
      slice mem (chunk + 8) (readHalfword mem (chunk + 4)).toNat :=
    slice_congr fun i low _ => later i (by omega)
  have first : readHalfword (copyAll mem (feedbackStores chunk id slot)) chunk = id := by
    rw [feedbackStores, copyAll_cons, copyAll_cons, copyAll_nil,
      readHalfword_copy_apart _ (Or.inl le_rfl), readHalfword_copy_self]
  have second : readHalfword (copyAll mem (feedbackStores chunk id slot)) (chunk + 2) = slot := by
    rw [feedbackStores, copyAll_cons, copyAll_cons, copyAll_nil, readHalfword_copy_self]
  simp only [readChunk, length, payload, first, second, later (chunk + 6) (by omega),
    later (chunk + 7) (by omega)]

theorem feedbackStores_inside {chunk size : ℕ} {id slot : UInt16} (header : 8 ≤ size) :
    ∀ store ∈ feedbackStores chunk id slot,
      chunk ≤ store.1 ∧ store.1 + store.2.length ≤ chunk + size := by
  intro store member
  simp only [feedbackStores, List.mem_cons, List.not_mem_nil, or_false] at member
  rcases member with rfl | rfl <;> simp only [halfword_length] <;> omega

/-! ## What the calls store -/

theorem txPayloadMetadata_length (connectionId : UInt16) (payload : List UInt8)
    (reserved : Fin 14 → UInt8) :
    (txPayloadMetadata connectionId payload reserved).length = sizeofTxPayloadMetadata := by
  rw [txPayloadMetadata, List.length_append, List.length_append, ByteOrder.bytes_length,
    halfword_length, List.length_ofFn]
  rfl

namespace Request

variable (r : Request) (mem : ℕ → UInt8) (chunk : ℕ)

theorem data_length (sends : r.begins = false) : r.data.length = r.size := by
  cases r with
  | transmitFrame frame warm => rfl
  | transmitPayload connectionId type payload reserved =>
      rw [data, List.length_append, txPayloadMetadata_length]
      rfl
  | beginFrame => cases sends
  | beginPayload => cases sends

/-- Every store lies in the chunk. -/
theorem stores_inside : ∀ store ∈ r.stores chunk,
    chunk ≤ store.1 ∧ store.1 + store.2.length ≤ chunk + r.chunkSize := by
  have header : ∀ store ∈ r.header chunk,
      chunk ≤ store.1 ∧ store.1 + store.2.length ≤ chunk + r.chunkSize := by
    intro store member
    simp only [Request.header, List.mem_cons, List.not_mem_nil, or_false] at member
    simp only [chunkSize, sizeofTxChunk]
    rcases member with rfl | rfl | rfl <;>
      simp only [halfword_length, List.length_cons, List.length_nil] <;> omega
  intro store member
  rcases List.mem_append.1 member with early | late
  · exact header store early
  · cases r with
    | transmitFrame frame warm =>
        simp only [body, List.mem_cons, List.not_mem_nil, or_false] at late
        rcases late with rfl | rfl <;>
          simp only [chunkSize, length, size, type, sizeofTxChunk, List.length_cons,
            List.length_nil, show exanicPayloadPaddingBytes exanicTxTypeRaw = 2 from rfl] <;> omega
    | transmitPayload connectionId type payload reserved =>
        simp only [body, List.mem_cons, List.not_mem_nil, or_false] at late
        rcases late with rfl | rfl <;>
          simp only [chunkSize, length, size, Request.type, sizeofTxChunk,
            txPayloadMetadata_length] <;> omega
    | beginFrame frameSize =>
        simp only [body, List.mem_cons, List.not_mem_nil, or_false] at late
        subst late
        simp only [chunkSize, length, size, type, sizeofTxChunk, List.length_cons,
          List.length_nil, show exanicPayloadPaddingBytes exanicTxTypeRaw = 2 from rfl]
        omega
    | beginPayload connectionId type payloadSize =>
        simp only [body, List.mem_cons, List.not_mem_nil, or_false] at late
        subst late
        simp only [chunkSize, length, size, Request.type, sizeofTxChunk, sizeofTxPayloadMetadata,
          halfword_length]
        omega

/-- The stores behind the header leave it alone. -/
theorem body_of_lt {i : ℕ} (before : i < chunk + 8) : copyAll mem (r.body chunk) i = mem i := by
  cases r with
  | transmitFrame =>
      rw [body, copyAll_cons, copyAll_cons, copyAll_nil, copy_of_lt _ _ (by simp only; omega),
        copy_of_lt _ _ (by simp only; omega)]
  | transmitPayload =>
      rw [body, copyAll_cons, copyAll_cons, copyAll_nil, copy_of_lt _ _ (by simp only; omega),
        copy_of_lt _ _ (by simp only; omega)]
  | beginFrame => rw [body, copyAll_cons, copyAll_nil, copy_of_lt _ _ (by simp only; omega)]
  | beginPayload => rw [body, copyAll_cons, copyAll_nil, copy_of_lt _ _ (by simp only; omega)]

theorem read_length :
    readHalfword (copyAll mem (r.stores chunk)) (chunk + 4) = .ofNat r.length := by
  have header : readHalfword (copyAll mem (r.header chunk)) (chunk + 4) = .ofNat r.length := by
    simp only [Request.header, copyAll_cons, copyAll_nil]
    rw [readHalfword_copy_apart _ (Or.inl (by omega)), readHalfword_copy_apart _ (Or.inl le_rfl),
      readHalfword_copy_self]
  rw [stores, copyAll_append, ← header]
  exact readHalfword_congr fun i _ high => r.body_of_lt _ chunk (by omega)

theorem read_type : copyAll mem (r.stores chunk) (chunk + 6) = r.type := by
  rw [stores, copyAll_append, r.body_of_lt _ chunk (by omega)]
  simp only [Request.header, copyAll_cons, copyAll_nil]
  rw [copy_of_lt _ _ (by omega)]
  exact copy_at _ (chunk + 6) [r.type] (j := 0) (by simp)

theorem read_flags : copyAll mem (r.stores chunk) (chunk + 7) = 0 := by
  rw [stores, copyAll_append, r.body_of_lt _ chunk (by omega)]
  simp only [Request.header, copyAll_cons, copyAll_nil]
  exact copy_at _ (chunk + 7) [0] (j := 0) (by simp)

theorem read_data (sends : r.begins = false) :
    slice (copyAll mem (r.stores chunk)) (chunk + 8 + exanicPayloadPaddingBytes r.type) r.size =
      r.data := by
  rw [stores, copyAll_append]
  cases r with
  | transmitFrame frame warm =>
      simp only [body, copyAll_cons, copyAll_nil]
      exact slice_copy_self _ _ _ rfl
  | transmitPayload connectionId type payload reserved =>
      simp only [body, copyAll_cons, copyAll_nil, size, data]
      rw [slice_add, slice_copy_self _ _ _ rfl, slice_copy_apart _ (Or.inl le_rfl),
        slice_copy_self _ _ _ (txPayloadMetadata_length _ _ _)]
  | beginFrame => cases sends
  | beginPayload => cases sends

/-- **The card reads what the call hands over.** -/
theorem read_message (sends : r.begins = false) :
    (readChunk (copyAll mem (r.stores chunk)) chunk).message = r.message := by
  have kept : r.length % 2 ^ 16 - exanicPayloadPaddingBytes r.type ≤ r.size := by
    have := Nat.mod_le r.length (2 ^ 16)
    have whole : r.length = exanicPayloadPaddingBytes r.type + r.size := rfl
    omega
  simp only [TxChunk.message, readChunk, r.read_length, r.read_type, r.read_flags,
    UInt16.toNat_ofNat', slice_drop, message]
  rw [← r.read_data mem chunk sends, slice_take kept]

/-- **The card reads a frame or payload whole exactly when it fits the 16 bits of
`chunk->length`**, padding included, or is empty. -/
theorem message_whole_iff (sends : r.begins = false) :
    (readChunk (copyAll mem (r.stores chunk)) chunk).message.data = r.data ↔
      r.length < 2 ^ 16 ∨ r.data = [] := by
  have whole : r.length = exanicPayloadPaddingBytes r.type + r.size := rfl
  have size := r.data_length sends
  have padding : exanicPayloadPaddingBytes r.type ≤ 2 := by
    unfold exanicPayloadPaddingBytes
    split <;> decide
  rw [r.read_message mem chunk sends, message, List.take_eq_self_iff, size,
    ← List.length_eq_zero_iff, size]
  rcases Nat.lt_or_ge r.length (2 ^ 16) with fits | long
  · rw [Nat.mod_eq_of_lt fits]
    exact ⟨fun _ => Or.inl fits, fun _ => by omega⟩
  · have := Nat.mod_lt r.length (show 0 < 2 ^ 16 by decide)
    constructor
    · intro kept
      right
      omega
    · rintro (fits | empty)
      · omega
      · omega

theorem message_whole_iff_short :
    (readChunk (copyAll (fun _ => 0) ((transmitFrame [1, 2, 3] false).stores 64)) 64).message.data =
        (transmitFrame [1, 2, 3] false).data ↔
      (transmitFrame [1, 2, 3] false).length < 2 ^ 16 ∨ (transmitFrame [1, 2, 3] false).data = [] :=
  message_whole_iff _ (fun _ => 0) 64 rfl

end Request

theorem End.chunkSize_ge (e : End) {preparedChunkSize : ℕ} (header : 8 ≤ preparedChunkSize) :
    8 ≤ e.chunkSize preparedChunkSize := by
  unfold End.chunkSize
  split
  · simp only [sizeofTxChunk]
    omega
  · exact header

theorem End.stores_inside (e : End) (chunk : ℕ) : ∀ store ∈ e.stores chunk,
    chunk ≤ store.1 ∧ store.1 + store.2.length ≤ chunk + 8 := by
  intro store member
  unfold End.stores at member
  split at member
  · obtain rfl := List.mem_singleton.1 member
    simp only [halfword_length]
    omega
  · cases member

/-- A chunk that is ended is as long as it says. -/
theorem End.read_length (e : End) (mem : ℕ → UInt8) (chunk : ℕ) {preparedChunkSize : ℕ}
    (fits : 8 + (readHalfword mem (chunk + 4)).toNat ≤ preparedChunkSize) :
    8 + (readHalfword (copyAll mem (e.stores chunk)) (chunk + 4)).toNat ≤
      e.chunkSize preparedChunkSize := by
  unfold End.stores End.chunkSize
  cases e.length with
  | some length =>
      have := Nat.mod_le length (2 ^ 16)
      simp only [copyAll_cons, copyAll_nil, readHalfword_copy_self, UInt16.toNat_ofNat',
        sizeofTxChunk]
      omega
  | none => exact fits

end ExanicCapture.Tx
