/-
# Tx.System -- the transmit path and the card, interleaved

`Sys` is the card's transmit memory, its feedback slots, the commands it has not
served, and the program: the handle, and where in a call it is.  A step is a call of
the program, the next thing a call does (one look at the feedback, one store into a
chunk, or the write of the command register), a store of the program into a chunk it
has prepared, one chunk served by the card, one feedback written by the card, or
whatever other handles do with their own memory and slots, in any order (`Step`).

`handed` collects what the calls hand over, in the order of the command writes: for
`exanic_transmit_frame` and `exanic_transmit_payload` the caller's own bytes, as far as the
16 bits of `chunk->length` count them (`Request.message`), for `exanic_end_transmit_*` what
the chunk holds when it is called.  `wire` is what the card sent.
-/
import ExanicCapture.Tx.Chunk
import Mathlib.Logic.Relation

namespace ExanicCapture.Tx

set_option autoImplicit false

open Theory Theory.Memory

/-! ## The system -/

/-- What a call reports. -/
inductive Error where
  | missingEnd
  | tooLarge
  | invalidFeedback
deriving DecidableEq

/-- Where in a call the program is.  A call that fills in a chunk has stores to make;
with the last of them done it sends the chunk or, if it only begins one, returns. -/
inductive Pc where
  | idle
  | sequence (r : Request)
  | space (r : Request)
  | filling (stores : List (ℕ × List UInt8)) (send : Option (ℕ × Message))

structure Sys where
  tx : ExanicTx
  mem : ℕ → UInt8
  slots : UInt16 → UInt16
  /-- Written to the command register and not served, the oldest first. -/
  commands : List ℕ
  /-- Feedback on its way: slot and id. -/
  reports : List (UInt16 × UInt16)
  pc : Pc
  errors : List Error
  handed : List Message
  wire : List Message

namespace Sys

variable (s : Sys)

/-- The slot of this handle. -/
def slot : UInt16 := s.tx.feedbackSlot.toUInt16

/-- The chunk at `next_offset`. -/
def chunk : ℕ := s.tx.bufferOffset + s.tx.nextOffset

def fail (error : Error) : Sys := { s with pc := .idle, errors := s.errors ++ [error] }

/-- `exanic_update_tx_feedback`; the loops go on unless it fails. -/
def updateFeedback : Sys :=
  let update := s.tx.exanicUpdateTxFeedback (s.slots s.slot)
  let s := { s with tx := update.1, slots := Function.update s.slots s.slot update.2.1 }
  if update.2.2 then s else s.fail .invalidFeedback

/-- The feedback fields of `exanic_send_tx_chunk`. -/
def stamp : List (ℕ × List UInt8) :=
  feedbackStores s.chunk s.tx.nextSeq s.tx.feedbackSlotIndex

/-- The end of `exanic_prepare_tx_chunk`. -/
def asked (r : Request) : Sys :=
  { s with tx := { s.tx with needFeedback := s.tx.asksFeedback (cacheAlign r.chunkSize) } }

/-- The chunk goes to the caller. -/
def beginChunk (r : Request) : Sys :=
  { s with
    tx := { s.tx with preparedChunk := some s.tx.nextOffset, preparedChunkSize := r.chunkSize }
    pc := .filling (r.stores s.chunk) none }

/-- The chunk is filled in and sent. -/
def fillChunk (r : Request) : Sys :=
  { s with pc := .filling (r.stores s.chunk ++ s.stamp) (some (r.chunkSize, r.message)) }

/-- `exanic_prepare_tx_chunk` returned a chunk. -/
def prepared (r : Request) : Sys :=
  let s := s.asked r
  if r.warm then { s with pc := .idle } else if r.begins then s.beginChunk r else s.fillChunk r

def looked (r : Request) : Sys :=
  { s with tx := (s.tx.look (cacheAlign r.chunkSize)).1 }

/-- One iteration of the second loop. -/
def lookForSpace (r : Request) : Sys :=
  match (s.tx.look (cacheAlign r.chunkSize)).2 with
  | .available => (s.looked r).prepared r
  | .tooLarge => (s.looked r).fail .tooLarge
  | .wait => (s.looked r).updateFeedback

/-- The command register is written and the state updated. -/
def post (chunkSize : ℕ) (message : Message) : Sys :=
  { s with
    tx := { s.tx.sent chunkSize with preparedChunk := none }
    commands := s.commands ++ [s.tx.bufferOffset + s.tx.nextOffset]
    pc := .idle
    handed := s.handed ++ [message] }

/-- The next thing the call does. -/
def host : Sys :=
  match s.pc with
  | .idle => s
  | .sequence r =>
      if s.tx.outOfSequenceNumbers then s.updateFeedback else { s with pc := .space r }
  | .space r => s.lookForSpace r
  | .filling (store :: stores) send =>
      { s with mem := copy s.mem store.1 store.2, pc := .filling stores send }
  | .filling [] none => { s with pc := .idle }
  | .filling [] (some (chunkSize, message)) => s.post chunkSize message

variable {s} in
theorem host_sequence {r : Request} (pc : s.pc = .sequence r) :
    s.host = if s.tx.outOfSequenceNumbers then s.updateFeedback else { s with pc := .space r } := by
  simp only [host, pc]

variable {s} in
theorem host_space {r : Request} (pc : s.pc = .space r) : s.host = s.lookForSpace r := by
  simp only [host, pc]

/-- One of the calls that prepare a chunk. -/
def call (r : Request) : Sys :=
  if s.tx.preparedChunk.isSome then s.fail .missingEnd else { s with pc := .sequence r }

/-- `exanic_end_transmit_frame` or `exanic_end_transmit_payload`. -/
def finish (e : End) (chunk : ℕ) : Sys :=
  let stores := e.stores (s.tx.bufferOffset + chunk)
  { s with
    pc := .filling (stores ++ s.stamp)
      (some (e.chunkSize s.tx.preparedChunkSize,
        (readChunk (copyAll s.mem stores) (s.tx.bufferOffset + chunk)).message)) }

/-- `exanic_abort_transmit_frame`. -/
def exanicAbortTransmitFrame : Sys := { s with tx := { s.tx with preparedChunk := none } }

/-- The card serves a chunk. -/
def serve (command : ℕ) (commands : List ℕ) : Sys :=
  let chunk := readChunk s.mem command
  { s with
    commands
    wire := s.wire ++ [chunk.message]
    reports :=
      if chunk.feedbackSlotIndex &&& 0x8000 = 0 then
        s.reports ++ [(chunk.feedbackSlotIndex, chunk.feedbackId)]
      else s.reports }

/-- The card writes a feedback. -/
def report (slot id : UInt16) (reports : List (UInt16 × UInt16)) : Sys :=
  { s with slots := Function.update s.slots slot id, reports }

/-- The state after `exanic_acquire_tx_buffer`. -/
structure Initial (r : Region) : Prop where
  tx : s.tx = r.exanicTx
  slots : s.slots s.slot = 0
  commands : s.commands = []
  reports : s.reports = []
  pc : s.pc = .idle
  errors : s.errors = []
  handed : s.handed = []
  wire : s.wire = []

end Sys

/-- One step of the program, of the card or of somebody else.  Sizes are sizes of C
objects.  A chunk that is ended is no larger than it was prepared for, and the program
stores into the payload of the chunk it has prepared only. -/
inductive Step : Sys → Sys → Prop where
  | call {s : Sys} {r : Request} (idle : s.pc = .idle) (object : r.chunkSize < 2 ^ 63) :
      Step s (s.call r)
  | host {s : Sys} : Step s s.host
  | store {s : Sys} {chunk offset : ℕ} {block : List UInt8} (idle : s.pc = .idle)
      (prepared : s.tx.preparedChunk = some chunk) (behind : sizeofTxChunk ≤ offset)
      (inside : offset + block.length ≤ s.tx.preparedChunkSize) :
      Step s { s with mem := copy s.mem (s.tx.bufferOffset + chunk + offset) block }
  | finish {s : Sys} {e : End} {chunk : ℕ} (idle : s.pc = .idle)
      (prepared : s.tx.preparedChunk = some chunk)
      (smaller : e.chunkSize s.tx.preparedChunkSize ≤ s.tx.preparedChunkSize) :
      Step s (s.finish e chunk)
  | abort {s : Sys} (idle : s.pc = .idle) : Step s s.exanicAbortTransmitFrame
  | serve {s : Sys} {command : ℕ} {commands : List ℕ} (next : s.commands = command :: commands) :
      Step s (s.serve command commands)
  | report {s : Sys} {slot id : UInt16} {reports : List (UInt16 × UInt16)}
      (next : s.reports = (slot, id) :: reports) : Step s (s.report slot id reports)
  | others {s : Sys} {mem : ℕ → UInt8} {slots : UInt16 → UInt16}
      (own : ∀ i, s.tx.bufferOffset ≤ i → i < s.tx.bufferOffset + s.tx.bufferSize →
        mem i = s.mem i)
      (slot : slots s.slot = s.slots s.slot) : Step s { s with mem, slots }

/-- The states of the runs of a handle. -/
def Reachable (r : Region) (s : Sys) : Prop :=
  ∃ start : Sys, start.Initial r ∧ Relation.ReflTransGen Step start s

/-! ## Runs that can be computed -/

/-- A piece of a run. -/
inductive Act where
  | call (q : Request)
  | host (turns : ℕ)
  | serve
  | report

/-- The state after a piece of a run; what cannot be done is left out. -/
def Sys.act (s : Sys) : Act → Sys
  | .call q =>
      match s.pc with
      | .idle => if q.chunkSize < 2 ^ 63 then s.call q else s
      | _ => s
  | .host turns => Sys.host^[turns] s
  | .serve =>
      match s.commands with
      | command :: commands => s.serve command commands
      | [] => s
  | .report =>
      match s.reports with
      | (slot, id) :: reports => s.report slot id reports
      | [] => s

theorem host_run (turns : ℕ) (s : Sys) : Relation.ReflTransGen Step s (Sys.host^[turns] s) := by
  induction turns generalizing s with
  | zero => exact .refl
  | succ turns ih => exact .head Step.host (ih s.host)

theorem act_run (s : Sys) (act : Act) : Relation.ReflTransGen Step s (s.act act) := by
  cases act with
  | call q =>
      simp only [Sys.act]
      split
      next idle =>
        split
        next object => exact .single (Step.call idle object)
        next => exact .refl
      next => exact .refl
  | host turns => exact host_run turns s
  | serve =>
      simp only [Sys.act]
      split
      next next => exact .single (Step.serve next)
      next => exact .refl
  | report =>
      simp only [Sys.act]
      split
      next next => exact .single (Step.report next)
      next => exact .refl

theorem Reachable.run {r : Region} {s s' : Sys} (reachable : Reachable r s)
    (run : Relation.ReflTransGen Step s s') : Reachable r s' := by
  obtain ⟨start, initial, before⟩ := reachable
  exact ⟨start, initial, before.trans run⟩

theorem Reachable.acts {r : Region} {s : Sys} (reachable : Reachable r s) (acts : List Act) :
    Reachable r (acts.foldl Sys.act s) := by
  induction acts generalizing s with
  | nil => exact reachable
  | cons act acts ih => exact ih (reachable.run (act_run s act))

/-- The default buffer, just acquired, in memory full of zeros. -/
def defaultRegion : Region where
  offset := 0x2000
  size := defaultTxBufferSize
  feedbackSlot := 3
  pages := by decide
  positive := by decide
  size_le := by decide

def acquired (r : Region) : Sys where
  tx := r.exanicTx
  mem _ := 0
  slots _ := 0
  commands := []
  reports := []
  pc := .idle
  errors := []
  handed := []
  wire := []

theorem acquired_reachable (r : Region) : Reachable r (acquired r) :=
  ⟨acquired r, ⟨rfl, rfl, rfl, rfl, rfl, rfl, rfl, rfl⟩, .refl⟩

end ExanicCapture.Tx
