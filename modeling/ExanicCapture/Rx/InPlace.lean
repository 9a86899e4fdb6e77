/-
# Rx.InPlace -- chunks processed in the ring, and the recheck afterwards

`exanic_receive_chunk_inplace` leaves the bytes in the ring and gives back a number that
names the chunk, its generation and slot.  `exanic_receive_chunk_recheck` compares the
generation in the slot with the number's.

`recheck_exact` says what that is worth, in any run: up to 255 laps later, the recheck
succeeds exactly while the next lap's chunk is not complete.  The bytes seen before it
were the chunk's, unless they were seen while the card was working on that very slot:
then the recheck still succeeds, whatever the payload holds.
-/
import ExanicCapture.Rx.SessionAccount

namespace ExanicCapture.Rx

set_option autoImplicit false

open Theory Theory.LapRing

/-- `exanic_receive_chunk_recheck`. -/
def exanicReceiveChunkRecheck (ring : ℕ → RxChunk) (chunkId : UInt32) : Bool :=
  let chunk := chunkId % .ofNat exanicRxNumChunks
  let generation := (chunkId / .ofNat exanicRxNumChunks).toUInt8
  (ring chunk.toNat).info.generation == generation

/-- `exanic_receive_chunk_timestamp`. -/
def exanicReceiveChunkTimestamp (ring : ℕ → RxChunk) (chunkId : UInt32) : UInt32 :=
  let chunk := chunkId % .ofNat exanicRxNumChunks
  (ring chunk.toNat).info.timestamp

/-! ## The number of a chunk -/

theorem exanicRxNumChunks_toNat :
    (UInt32.ofNat exanicRxNumChunks).toNat = exanicRxNumChunks := by decide

/-- Generation and slot fit into the number. -/
theorem chunkId_toNat (generation : UInt8) {slot : ℕ} (inside : slot < exanicRxNumChunks) :
    (generation.toUInt32 * .ofNat exanicRxNumChunks + UInt32.ofNat slot).toNat =
      generation.toNat * exanicRxNumChunks + slot := by
  have size : exanicRxNumChunks = 16384 := by decide
  have low := generation.toNat_lt
  rw [UInt32.toNat_add, UInt32.toNat_mul, exanicRxNumChunks_toNat, UInt32.toNat_ofNat',
    UInt8.toNat_toUInt32, size]
  rw [size] at inside
  omega

namespace Hardware

variable (hw : Hardware) (c : Cursor)

theorem chunkId_slot :
    (hw.chunkId c % .ofNat exanicRxNumChunks).toNat = hw.position c % exanicRxNumChunks := by
  have inside := Nat.mod_lt (hw.position c) exanicRxNumChunks_pos
  rw [UInt32.toNat_mod, chunkId, chunkId_toNat _ inside, exanicRxNumChunks_toNat,
    Nat.mul_add_mod_self_right, Nat.mod_eq_of_lt inside]

theorem chunkId_generation :
    (hw.chunkId c / .ofNat exanicRxNumChunks).toUInt8 = hw.generation (hw.position c) := by
  have inside := Nat.mod_lt (hw.position c) exanicRxNumChunks_pos
  rw [← UInt8.toNat_inj, UInt32.toNat_toUInt8, UInt32.toNat_div, chunkId, chunkId_toNat _ inside,
    exanicRxNumChunks_toNat, lap_entry inside]
  exact Nat.mod_eq_of_lt (hw.generation (hw.position c)).toNat_lt

end Hardware

variable {hw : Hardware} {first : ℕ} {s s' : Session} {c : Cursor}

/-- What a recheck compares. -/
theorem recheck_iff (ring : ℕ → RxChunk) :
    exanicReceiveChunkRecheck ring (hw.chunkId c) = true ↔
      (ring (hw.position c % exanicRxNumChunks)).info.generation = hw.generation (hw.position c) := by
  simp only [exanicReceiveChunkRecheck, hw.chunkId_slot, hw.chunkId_generation, beq_iff_eq]

/-! ## The chunk a call in place takes -/

/-- The number a call in place stored, if it did. -/
def Event.chunkId? : Event → Option UInt32
  | .inplace _ _ chunkId _ _ => chunkId
  | _ => none

/-- Chunk `c` is in the slot that the reader looks at: the newest chunk written there. -/
structure Session.Takes (hw : Hardware) (s : Session) (c : Cursor) : Prop where
  valid : hw.Valid c
  slot : s.rx.nextChunk = hw.position c % exanicRxNumChunks
  written : hw.position c < s.written
  current : s.written ≤ hw.position c + exanicRxNumChunks

/-- A position in the stream is one chunk of one frame. -/
theorem Hardware.Valid.unique {d : Cursor} (valid : hw.Valid c) (valid' : hw.Valid d)
    (same : hw.position c = hw.position d) : c = d := by
  have inside : c.chunk < (hw.stream.segment c.frame).length := by
    show c.chunk < (hw.frame c.frame).chunks.length
    rw [Frame.chunks_length]
    exact Nat.lt_succ_of_le valid
  have inside' : d.chunk < (hw.stream.segment d.frame).length := by
    show d.chunk < (hw.frame d.frame).chunks.length
    rw [Frame.chunks_length]
    exact Nat.lt_succ_of_le valid'
  obtain ⟨frame, chunk⟩ := hw.stream.start_add_injective inside inside' same
  cases c
  cases d
  simp_all only

theorem Session.Takes.unique {d : Cursor} (takes : s.Takes hw c) (also : s.Takes hw d) : c = d := by
  refine takes.valid.unique also.valid ?_
  have slot := takes.slot.symm.trans also.slot
  have := takes.written
  have := takes.current
  have := also.written
  have := also.current
  wlog order : hw.position c ≤ hw.position d generalizing c d
  · exact (this also takes slot.symm ‹_› ‹_› ‹_› ‹_› (by omega)).symm
  have apart := (Nat.modEq_iff_dvd' order).1 slot
  have := Nat.eq_zero_of_dvd_of_lt apart (by omega)
  omega

theorem Session.inplaceEvent_chunkId (ex : Bool) (info : RxChunkInfo) :
    (s.inplaceEvent ex info).chunkId? = some s.rx.chunkId := by
  unfold Session.inplaceEvent
  split <;> rfl

/-- A call in place that returns a number takes the chunk at which the abstract reader
stands, and the number names it. -/
theorem SessionInv.takes {ex : Bool} {event : Event} {id : UInt32} (inv : SessionInv hw first s)
    (call : s.pc = .inplace ex false) (returned : s.read.log = s.log ++ [event])
    (given : event.chunkId? = some id) :
    ∃ c, Answered hw first s.log c ∧ s.Takes hw c ∧ id = hw.chunkId c := by
  obtain ⟨ring, c, log, place⟩ := inv
  unfold SessionPlace at place
  rw [call] at place
  obtain ⟨e, reading⟩ := place
  have stands := reading.stands
  simp only [Session.read, call, Session.inplaceStep, Bool.false_eq_true, if_false] at returned
  rcases stands.look ring with ⟨-, stale⟩ | ⟨written, recent, word, current⟩ | ⟨-, other, older⟩
  · -- nothing new: the call stores no number
    have fresh : (s.ring s.rx.nextChunk).info.generation ≠ s.rx.generation :=
      fun current => generation_pred_ne _ (stale.symm.trans current)
    rw [if_neg fresh, if_pos stale] at returned
    rw [← List.singleton_inj.1 (List.append_cancel_left returned)] at given
    exact absurd given (by simp [Event.chunkId?])
  · rw [if_pos current] at returned
    rw [← List.singleton_inj.1 (List.append_cancel_left returned),
      Session.inplaceEvent_chunkId] at given
    exact ⟨c, log, ⟨reading.valid, stands.slot, written, recent⟩,
      by rw [← Option.some.inj given, stands.chunkId]⟩
  · -- lapped: the call has not returned yet
    rw [if_neg other, if_neg older] at returned
    exact absurd returned (by simp)

/-! ## The card only goes on -/

theorem Session.read_written (s : Session) : s.read.written = s.written := by
  unfold Session.read
  split
  next => rfl
  next =>
    simp only [Session.frameStep]
    split <;> rfl
  next ex pc _ =>
    cases pc with
    | entry =>
        simp only [Session.chunkStep]
        split
        · rfl
        · split <;> rfl
    | copy => rfl
    | check =>
        simp only [Session.chunkStep]
        split <;> rfl
    | lapped => rfl
  next =>
    simp only [Session.inplaceStep]
    split
    · rfl
    · split
      · rfl
      · split <;> rfl
  next =>
    simp only [Session.abortStep]
    split
    · rfl
    · split
      · split <;> rfl
      · split <;> rfl

theorem SessionStep.written_le (step : SessionStep hw s s') : s.written ≤ s'.written := by
  cases step with
  | scribble payload => exact le_rfl
  | write room => exact Nat.le_succ _
  | call idle starts => exact le_rfl
  | read recent => exact s.read_written.ge

theorem session_written_le (run : Relation.ReflTransGen (SessionStep hw) s s') :
    s.written ≤ s'.written := by
  induction run with
  | refl => exact le_rfl
  | tail _ step ih => exact ih.trans step.written_le

/-! ## What a recheck is worth -/

/-- The bytes of a chunk as a reader of its slot finds them. -/
def Session.inSlot (s : Session) (id : UInt32) (length : UInt8) : List UInt8 :=
  payloadBytes (s.ring (id % .ofNat exanicRxNumChunks).toNat).payload length

/-- The bytes of chunk `c` were looked at in `s`, and its number is rechecked in `s'`. -/
structure Rechecked (hw : Hardware) (s s' : Session) (id : UInt32) (c : Cursor) : Prop where
  named : id = hw.chunkId c
  written : hw.position c < s.written
  overwritten : s'.written ≤ hw.position c + 255 * exanicRxNumChunks →
    (exanicReceiveChunkRecheck s'.ring id = true ↔
      s'.written ≤ hw.position c + exanicRxNumChunks)
  bytes : s'.written ≤ hw.position c + 255 * exanicRxNumChunks →
    exanicReceiveChunkRecheck s'.ring id = true →
      s.written ≠ hw.position c + exanicRxNumChunks →
        s.inSlot id (hw.word c).length = hw.data c ∧
          exanicReceiveChunkTimestamp s.ring id = (hw.word c).timestamp
  unnoticed : s.written = hw.position c + exanicRxNumChunks → ∀ payload,
    exanicReceiveChunkRecheck (s.scribble payload).ring id = true ∧
      (s.scribble payload).inSlot id 0 = payload.toList

theorem Session.Ring.rechecked {w : ℕ} (ring : s.Ring hw) (written : hw.position c < s.written)
    (same : s.written = w) (bounded : w ≤ hw.position c + 255 * exanicRxNumChunks) :
    exanicReceiveChunkRecheck s.ring (hw.chunkId c) = true ↔
      w ≤ hw.position c + exanicRxNumChunks := by
  have stands := hw.sentinel_stands_iff (e := hw.position c + exanicRxNumChunks) (w := w)
    (by omega) (by omega)
  rw [Nat.add_mod_right, hw.stamp_lap] at stands
  rw [recheck_iff, ring.info, same, stands]

/-- **What a recheck is worth**, in every run.  A call in place returned from `s₀` and
gave the number `id` of a chunk, the bytes of which are looked at in `s₁`, and the number
is rechecked in `s₂`. -/
theorem recheck_exact {s₀ s₁ s₂ : Session} {ex : Bool} {event : Event} {id : UInt32}
    (initial : s.Initial hw first) (run : Relation.ReflTransGen (SessionStep hw) s s₀)
    (call : s₀.pc = .inplace ex false) (returned : s₀.read.log = s₀.log ++ [event])
    (given : event.chunkId? = some id)
    (looked : Relation.ReflTransGen (SessionStep hw) s₀.read s₁)
    (later : Relation.ReflTransGen (SessionStep hw) s₁ s₂) :
    ∃ c, Answered hw first s₀.log c ∧ (s₀.Takes hw c ∧ ∀ d, s₀.Takes hw d → d = c) ∧
      Rechecked hw s₁ s₂ id c := by
  obtain ⟨c, log, takes, rfl⟩ := (session_inv_run initial run).takes call returned given
  have recent : s₀.Recent := by
    rw [Session.Recent, call]
    trivial
  have upTo := (run.tail (.read recent)).trans looked
  have before := (session_inv_run initial upTo).ring
  have after := (session_inv_run initial (upTo.trans later)).ring
  have more := session_written_le later
  have written : hw.position c < s₁.written := by
    have := session_written_le looked
    rw [Session.read_written] at this
    exact takes.written.trans_le this
  have overwritten := fun bounded =>
    after.rechecked (c := c) (written.trans_le more) rfl bounded
  refine ⟨c, log, ⟨takes, fun d also => also.unique takes⟩, rfl, written, overwritten, ?_, ?_⟩
  · intro bounded passed elsewhere
    have kept := (overwritten bounded).1 passed
    have stands : s₁.written ≤ hw.position c + exanicRxNumChunks - 1 := by omega
    have positive := exanicRxNumChunks_pos
    refine ⟨?_, ?_⟩
    · rw [Session.inSlot, hw.chunkId_slot]
      exact before.bytes (by omega) written stands
    · have current := (hw.reflects_ringAfter s₁.written).current
        (p := hw.position c + exanicRxNumChunks) (by omega) (by omega)
      rw [Nat.add_mod_right, hw.content_add] at current
      simp only [exanicReceiveChunkTimestamp, hw.chunkId_slot]
      rw [before.info, current]
      rfl
  · intro caught payload
    have slot : s₁.written % exanicRxNumChunks = hw.position c % exanicRxNumChunks := by
      rw [caught, Nat.add_mod_right]
    have scribbled := before.scribble payload
    refine ⟨(scribbled.rechecked (c := c) written rfl (by show s₁.written ≤ _; omega)).2 ?_, ?_⟩
    · exact caught.le
    · rw [Session.inSlot, hw.chunkId_slot, ← slot]
      show (Function.update s₁.ring _ _ _).payload.toList = _
      rw [Function.update_self]

/-! ## Poles: a chunk of a generation that was there before -/

theorem Poles.chunkId_alias :
    Poles.card.chunkId ⟨256 * exanicRxNumChunks, 0⟩ = Poles.card.chunkId ⟨0, 0⟩ := by
  rw [Hardware.chunkId, Hardware.chunkId, Poles.card_position, Poles.card_position]
  decide

/-- A call in place takes chunk 4194304, which has the number of chunk 0.  The bytes are
looked at one chunk later, and the number is rechecked after another lap. -/
theorem recheck_exact_alias : ∃ (s₀ s₁ s₂ : Session) (c : Cursor),
    s₁.written = s₀.written + 1 ∧ s₂.written = s₁.written + exanicRxNumChunks ∧
      Poles.card.position c = 256 * exanicRxNumChunks ∧
      (s₀.Takes Poles.card c ∧ ∀ d, s₀.Takes Poles.card d → d = c) ∧
      Rechecked Poles.card s₁ s₂ (Poles.card.chunkId ⟨0, 0⟩) c := by
  have positive := exanicRxNumChunks_pos
  have again := Poles.chunkId_alias
  generalize 256 * exanicRxNumChunks = p at again ⊢
  obtain ⟨s, taken⟩ := Poles.comes_inplaces p
  obtain ⟨-, ready⟩ := taken.write (by omega)
  have given := ready.inplace (Nat.lt_succ_self p) (by omega)
  obtain ⟨step, passed⟩ := given.write (by omega)
  obtain ⟨s₂, run, lapped⟩ := passed.writes exanicRxNumChunks (by omega)
  obtain ⟨c, -, takes, rechecked⟩ := recheck_exact Poles.opened_initial
    (ready.call (.inplace true)) rfl (given.log.trans (congrArg (· ++ [_]) ready.log.symm)) rfl
    (.single step) run
  have position := Poles.card_position p
  have same : ⟨p, 0⟩ = c := takes.2 _
    { valid := Nat.zero_le _
      slot := by rw [position]; exact ready.stands.slot
      written := by rw [position]; exact ready.written ▸ Nat.lt_succ_self p
      current := by rw [position]; exact ready.written ▸ Nat.add_le_add_left positive p }
  refine ⟨_, _, s₂, c, ?_, lapped.written.trans (by rw [passed.written]), ?_, takes, ?_⟩
  · exact passed.written.trans (congrArg (· + 1) ready.written.symm)
  · rw [← same, position]
  · rw [← again]
    exact rechecked

end ExanicCapture.Rx
