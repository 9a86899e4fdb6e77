/-
# Rx.SessionAccount -- the library never hands over a torn chunk

`SessionInv` ties a session to the abstract reader of `Rx.Session`.  The point is the
sentinel: a call that copies looks at entry `e`, which lies in front of everything the
call has copied (`Reading.behind`).  If the card has not written past it now
(`written ≤ e`), it had not when the copies were made, and each of them is what the card
wrote (`Gathered`).  This holds although the card writes payloads piecemeal, because the
slot it is working on is the sentinel's or one before it.

How far the card is ahead of the sentinel is not known while the reader moves in place.
What is known is that the card had not written past it when it was checked or set
(`Guards.checked`), and for a look at most 254 laps later the generation tells
(`Reading.sentinel_stands_iff`).

`session_answered` is the result: whatever the mix of calls and the interleaving, the
log of a run is the work of the abstract reader.
-/
import ExanicCapture.Rx.Session
import ExanicCapture.Rx.System
import Mathlib.Logic.Relation

namespace ExanicCapture.Rx

set_option autoImplicit false

open Theory Theory.LapRing

/-! ## What the card leaves in the ring -/

theorem generation_pred_ne (generation : UInt8) : generation - 1 ≠ generation := by grind

namespace Hardware

variable (hw : Hardware)

theorem stamped_content : Stamped exanicRxNumChunks (fun c : RxChunk => c.info.generation)
    hw.stamp hw.content :=
  hw.content_generation

/-- What a load of the word of chunk `p` can find. -/
theorem look {p w : ℕ} (reached : p ≤ w) (bounded : w ≤ p + 255 * exanicRxNumChunks) :
    let found := (hw.ringAfter w (p % exanicRxNumChunks)).info
    (w = p ∧ found.generation = hw.generation p - 1) ∨
      (p < w ∧ w ≤ p + exanicRxNumChunks ∧ found = (hw.chunk p).info) ∨
      (p + exanicRxNumChunks < w ∧ found.generation ≠ hw.generation p ∧
        found.generation ≠ hw.generation p - 1) := by
  have reflects := hw.reflects_ringAfter w
  have current := read_current_iff (p := p + exanicRxNumChunks) hw.recycled_stamp reflects
    hw.stamped_content exanicRxNumChunks_pos (by omega) (by omega) (by omega) (by omega)
  have pending := read_pending_iff (p := p + exanicRxNumChunks) hw.recycled_stamp reflects
    hw.stamped_content exanicRxNumChunks_pos (by omega) (by omega) (by omega) (by omega)
  rw [Nat.add_mod_right, hw.stamp_lap] at current
  rw [Nat.add_mod_right, hw.stamp_lap_before] at pending
  rcases Nat.lt_trichotomy p w with written | caught | beyond
  · rcases Nat.lt_or_ge (p + exanicRxNumChunks) w with passed | recent
    · refine Or.inr (Or.inr ⟨passed, fun same => ?_, fun same => ?_⟩)
      · have := current.1 same
        omega
      · have := pending.1 same
        omega
    · refine Or.inr (Or.inl ⟨written, recent, ?_⟩)
      have := reflects.current (p := p + exanicRxNumChunks) (by omega) (by omega)
      rw [Nat.add_mod_right, hw.content_add] at this
      rw [this]
  · exact Or.inl ⟨caught.symm, pending.2 (by omega)⟩
  · omega

/-- The sentinel stands exactly while the card has not written past it. -/
theorem sentinel_stands_iff {e w : ℕ} (written : e < w + exanicRxNumChunks)
    (bounded : w + exanicRxNumChunks ≤ e + 255 * exanicRxNumChunks) :
    (hw.ringAfter w (e % exanicRxNumChunks)).info.generation = hw.stamp (e / exanicRxNumChunks) ↔
      w ≤ e := by
  have kept := read_kept_iff hw.recycled_stamp (hw.reflects_ringAfter w) hw.stamped_content
    exanicRxNumChunks_pos written bounded
  rw [kept]
  omega

/-- The catch-up leaves the reader at the frame being written, the sentinel right before
it. -/
theorem catchup_ringAfter (rx : ExanicRx) {w frame : ℕ} (started : hw.start frame ≤ w)
    (inside : w < hw.start (frame + 1)) :
    let rx := exanicRxCatchup (fun i => (hw.ringAfter w i).info) rx
    rx.StandsAt hw.stamp (hw.start frame + exanicRxNumChunks) ∧
      rx.sentinelChunk = (hw.start frame + exanicRxNumChunks - 1) % exanicRxNumChunks ∧
      rx.sentinelChunkGeneration.toUInt8 =
        hw.stamp ((hw.start frame + exanicRxNumChunks - 1) / exanicRxNumChunks) := by
  have positive := exanicRxNumChunks_pos
  have last := hw.lastEofEntry started inside
  have place : hw.start frame + exanicRxNumChunks - 1 + 1 = hw.start frame + exanicRxNumChunks := by
    omega
  have names := exanicRxCatchup_position hw.recycled_stamp hw.stamp_succ
    (hw.reflects_ringAfter w) hw.content_generation (by omega) last rx
  obtain ⟨found, chunk, gen⟩ := scan_finds hw.recycled_stamp (hw.reflects_ringAfter w)
    hw.content_generation (by omega) last
  rw [place] at names
  refine ⟨names, ?_, ?_⟩
  · simp only [exanicRxCatchup, found, if_true]
    rw [ExanicRx.advance_sentinelChunk, chunk]
  · simp only [exanicRxCatchup, found, if_true]
    rw [ExanicRx.advance_sentinelChunkGeneration, gen]
    exact UInt8.toUInt8_toUInt32 _

/-! ## Cursors -/

/-- The cursor names a chunk of its frame. -/
def Valid (c : Cursor) : Prop := c.chunk ≤ (hw.frame c.frame).body.length

variable {hw} {c : Cursor}

theorem Valid.last (valid : hw.Valid c) (last : ¬ hw.More c) :
    c.chunk = (hw.frame c.frame).body.length :=
  le_antisymm valid (Nat.le_of_not_lt last)

theorem entry_position_last (valid : hw.Valid c) (last : ¬ hw.More c) :
    hw.stream.entry (hw.position c) = (hw.frame c.frame).last := by
  rw [position, valid.last last, hw.entry_last]

theorem word_length_iff (valid : hw.Valid c) : (hw.word c).length = 0 ↔ hw.More c := by
  constructor
  · intro full
    by_contra last
    have eof := hw.chunk_length_last c.frame
    rw [← valid.last last] at eof
    exact eof full
  · exact hw.chunk_length_body c.frame

theorem word_size (valid : hw.Valid c) : (hw.word c).size = (hw.data c).length := by
  have same : (hw.word c).length = (hw.stream.entry (hw.position c)).length := rfl
  unfold RxChunkInfo.size
  by_cases more : hw.More c
  · have full := (word_length_iff valid).2 more
    rw [if_pos full, data, HwChunk.bytes, ← same, full, payloadBytes_full, Vector.length_toList]
  · have eof := mt (word_length_iff valid).1 more
    rw [if_neg eof, data, same, entry_position_last valid more, Frame.last_bytes_length]

theorem word_error (valid : hw.Valid c) (last : ¬ hw.More c) : (hw.word c).error = hw.error c := by
  show ((hw.stream.entry (hw.position c)).frameStatus &&& exanicRxFrameErrorMask).toNat = _
  rw [entry_position_last valid last]
  rfl

theorem word_timestamp (valid : hw.Valid c) (last : ¬ hw.More c) :
    (hw.word c).timestamp = (hw.frame c.frame).last.timestamp := by
  show (hw.stream.entry (hw.position c)).timestamp = _
  rw [entry_position_last valid last]

theorem position_nextFrame (valid : hw.Valid c) (last : ¬ hw.More c) :
    hw.position c.nextFrame = hw.position c + 1 := by
  rw [position, position, valid.last last, Cursor.nextFrame, hw.start_succ, Frame.chunks_length]
  rfl

theorem position_nextChunk (valid : hw.Valid c) :
    hw.position (hw.nextChunk c) = hw.position c + 1 := by
  unfold nextChunk
  split
  · rfl
  · exact position_nextFrame valid ‹_›

theorem valid_nextChunk : hw.Valid (hw.nextChunk c) := by
  unfold nextChunk
  split
  next more => exact more
  next => exact Nat.zero_le _

theorem valid_nextFrame : hw.Valid c.nextFrame := Nat.zero_le _

theorem nextChunk_frame (more : hw.More c) : (hw.nextChunk c).frame = c.frame := by
  rw [nextChunk, if_pos more]

/-- A frame is its chunk and what follows. -/
theorem rest_more (more : hw.More c) : hw.rest c = hw.data c ++ hw.rest (hw.nextChunk c) := by
  have inside : c.chunk < (hw.frame c.frame).chunks.length := by
    rw [Frame.chunks_length]
    exact Nat.lt_succ_of_lt more
  have entry : hw.stream.entry (hw.position c) = (hw.frame c.frame).chunks[c.chunk] :=
    hw.stream.entry_start_add inside
  rw [rest, rest, nextChunk, if_pos more, List.drop_eq_getElem_cons inside, List.flatMap_cons, data,
    entry]

theorem data_more (more : hw.More c) : (hw.data c).length = exanicRxChunkPayloadSize := by
  rw [data, position, hw.entry_body c.frame more]
  exact (hw.frame c.frame).body_bytes_length (List.getElem_mem _)

theorem rest_last (valid : hw.Valid c) (last : ¬ hw.More c) : hw.rest c = hw.data c := by
  rw [rest, data, entry_position_last valid last, valid.last last, Frame.chunks,
    List.drop_left' rfl, List.flatMap_singleton]

end Hardware

/-! ## The invariant -/

variable {hw : Hardware} {first : ℕ} {s : Session} {c d : Cursor} {e q : ℕ}

/-- The ring is what the card has written, but for the payload it is working on. -/
structure Session.Ring (hw : Hardware) (s : Session) : Prop where
  info : ∀ i, (s.ring i).info = (hw.ringAfter s.written i).info
  payload : ∀ i, i ≠ s.written % exanicRxNumChunks →
    (s.ring i).payload = (hw.ringAfter s.written i).payload

/-- The sentinel that the next check will look at: slot and generation. -/
def Session.guard (s : Session) : ℕ × UInt8 :=
  match s.pc with
  | .frame _ (.check chunk generation _ _) => (chunk, generation)
  | .chunk _ (.copy _ _ chunk generation) => (chunk, generation)
  | .chunk _ (.check _ chunk generation) => (chunk, generation)
  | _ => (s.rx.sentinelChunk, s.rx.sentinelChunkGeneration.toUInt8)

/-- Entry `e` of the ring is that sentinel, and the card had not written past it when it
was checked or set. -/
structure Session.Guards (hw : Hardware) (s : Session) (e : ℕ) : Prop where
  slot : s.guard.1 = e % exanicRxNumChunks
  lap : s.guard.2 = hw.stamp (e / exanicRxNumChunks)
  checked : s.checked ≤ e

/-- The call began at `c`, its next chunk is `q`, and the sentinel it will look at is
entry `e`, in front of `c`. -/
structure Reading (hw : Hardware) (s : Session) (c : Cursor) (e q : ℕ) : Prop where
  valid : hw.Valid c
  behind : e < hw.position c + exanicRxNumChunks
  later : hw.position c ≤ q
  guards : s.Guards hw e
  stands : s.Stands hw q

/-- The call has read `size` bytes, and `d` is the chunk to be copied next.  If the
sentinel stands, they are the first bytes of the frame. -/
structure Gathered (hw : Hardware) (s : Session) (c d : Cursor) (e rxBufSize size : ℕ) : Prop where
  frame : d.frame = c.frame
  valid : hw.Valid d
  later : hw.position c ≤ hw.position d
  length : size + (hw.rest d).length = (hw.rest c).length
  bytes : s.written ≤ e → size ≤ rxBufSize →
    Memory.front size s.rxBuf ++ hw.rest d = hw.rest c

/-- The sentinel of the handle is chunk `p`. -/
structure Sentinel (hw : Hardware) (s : Session) (p : ℕ) : Prop where
  slot : s.rx.sentinelChunk = (p + exanicRxNumChunks) % exanicRxNumChunks
  lap : s.rx.sentinelChunkGeneration.toUInt8 =
    hw.stamp ((p + exanicRxNumChunks) / exanicRxNumChunks)

/-- The last chunk was copied, and the whole frame if the sentinel stands. -/
structure Copied (hw : Hardware) (s : Session) (c d : Cursor) (e rxBufSize size : ℕ) : Prop where
  frame : d.frame = c.frame
  valid : hw.Valid d
  last : ¬ hw.More d
  length : size + (hw.data d).length = (hw.rest c).length
  fits : (hw.rest c).length ≤ rxBufSize
  bytes : s.written ≤ e → Memory.front (hw.rest c).length s.rxBuf = hw.rest c

/-- What holds where the call stands that began at `c`. -/
def SessionPlace (hw : Hardware) (c : Cursor) (s : Session) : Prop :=
  match s.pc with
  | .idle | .frame _ .entry | .chunk _ .entry | .inplace _ false =>
      ∃ e, Reading hw s c e (hw.position c)
  | .frame n (.copy chunk info size) =>
      ∃ d e, Reading hw s c e (hw.position d + 1) ∧ Gathered hw s c d e n size ∧
        chunk = hw.position d % exanicRxNumChunks ∧ info = hw.word d
  | .frame n (.spin size) =>
      ∃ d e, Reading hw s c e (hw.position d) ∧ Gathered hw s c d e n size
  | .frame n (.check _ _ info size) =>
      ∃ d e, Reading hw s c e (hw.position d + 1) ∧ Copied hw s c d e n size ∧
        Sentinel hw s (hw.position d) ∧ info = hw.word d
  | .chunk _ (.copy chunk info _ _) =>
      ∃ e, Reading hw s c e (hw.position c + 1) ∧ Sentinel hw s (hw.position c) ∧
        chunk = hw.position c % exanicRxNumChunks ∧ info = hw.word c
  | .chunk _ (.check info _ _) =>
      ∃ e, Reading hw s c e (hw.position c + 1) ∧ Sentinel hw s (hw.position c) ∧
        info = hw.word c ∧ (s.written ≤ e → Memory.front info.size s.rxBuf = hw.data c)
  | .abort false => ∃ d e, d.frame = c.frame ∧ Reading hw s d e (hw.position d)
  | .frame _ .lapped | .chunk _ .lapped | .inplace _ true | .abort true =>
      hw.start c.frame ≤ s.written
  | .frame _ (.done _) => False

/-- The invariant of a session. -/
structure SessionInv (hw : Hardware) (first : ℕ) (s : Session) : Prop where
  ring : s.Ring hw
  place : ∃ c, Answered hw first s.log c ∧ SessionPlace hw c s

/-! ## The card's steps -/

theorem Session.Ring.scribble (ring : s.Ring hw)
    (payload : Vector UInt8 exanicRxChunkPayloadSize) : (s.scribble payload).Ring hw where
  info := by
    intro i
    show (Function.update s.ring _ _ i).info = (hw.ringAfter s.written i).info
    by_cases here : i = s.written % exanicRxNumChunks
    · rw [here, Function.update_self, ← ring.info]
    · rw [Function.update_of_ne here, ring.info]
  payload := by
    intro i elsewhere
    have other : i ≠ s.written % exanicRxNumChunks := elsewhere
    show (Function.update s.ring _ _ i).payload = _
    rw [Function.update_of_ne other]
    exact ring.payload i other

theorem Session.Ring.write (ring : s.Ring hw) : (s.write hw).Ring hw where
  info := by
    intro i
    show (Function.update s.ring _ _ i).info =
      (Function.update (hw.ringAfter s.written) _ _ i).info
    by_cases here : i = s.written % exanicRxNumChunks
    · rw [here, Function.update_self, Function.update_self]
    · rw [Function.update_of_ne here, Function.update_of_ne here, ring.info]
  payload := by
    intro i _
    show (Function.update s.ring _ _ i).payload =
      (Function.update (hw.ringAfter s.written) _ _ i).payload
    by_cases here : i = s.written % exanicRxNumChunks
    · rw [here, Function.update_self, Function.update_self]
    · rw [Function.update_of_ne here, Function.update_of_ne here, ring.payload i here]

/-- The card worked, the reader did not. -/
structure Session.Rests (hw : Hardware) (s s' : Session) : Prop where
  rx : s'.rx = s.rx
  rxBuf : s'.rxBuf = s.rxBuf
  pc : s'.pc = s.pc
  log : s'.log = s.log
  checked : s'.checked = s.checked
  later : s.written ≤ s'.written
  bounded : ∀ q, s.Stands hw q → s'.written ≤ q + 255 * exanicRxNumChunks

theorem Session.rests_scribble (payload : Vector UInt8 exanicRxChunkPayloadSize) :
    s.Rests hw (s.scribble payload) :=
  ⟨rfl, rfl, rfl, rfl, rfl, le_rfl, fun _ stands => stands.bounded⟩

theorem Session.rests_write (room : s.CanWrite hw) : s.Rests hw (s.write hw) where
  rx := rfl
  rxBuf := rfl
  pc := rfl
  log := rfl
  checked := rfl
  later := Nat.le_succ _
  bounded := room

section Rests

variable {s' : Session} (rests : s.Rests hw s')

include rests

theorem Session.Rests.guard : s'.guard = s.guard := by
  simp only [Session.guard, rests.pc, rests.rx]

theorem Session.Stands.carry (stands : s.Stands hw q) : s'.Stands hw q where
  names := by
    rw [rests.rx]
    exact stands.names
  reached := stands.reached.trans rests.later
  bounded := rests.bounded q stands

theorem Reading.carry (reading : Reading hw s c e q) : Reading hw s' c e q where
  valid := reading.valid
  behind := reading.behind
  later := reading.later
  guards :=
    { slot := by rw [rests.guard, reading.guards.slot]
      lap := by rw [rests.guard, reading.guards.lap]
      checked := by rw [rests.checked]; exact reading.guards.checked }
  stands := reading.stands.carry rests

theorem Gathered.carry {n size : ℕ} (gathered : Gathered hw s c d e n size) :
    Gathered hw s' c d e n size :=
  { gathered with
    bytes := by
      rw [rests.rxBuf]
      exact fun stands => gathered.bytes (rests.later.trans stands) }

theorem Copied.carry {n size : ℕ} (copied : Copied hw s c d e n size) :
    Copied hw s' c d e n size :=
  { copied with
    bytes := by
      rw [rests.rxBuf]
      exact fun stands => copied.bytes (rests.later.trans stands) }

theorem Sentinel.carry {p : ℕ} (sentinel : Sentinel hw s p) : Sentinel hw s' p where
  slot := by
    rw [rests.rx]
    exact sentinel.slot
  lap := by
    rw [rests.rx]
    exact sentinel.lap

theorem SessionPlace.carry (place : SessionPlace hw c s) : SessionPlace hw c s' := by
  unfold SessionPlace at place ⊢
  rw [rests.pc]
  split at place
  next => exact place.imp fun _ reading => reading.carry rests
  next => exact place.imp fun _ reading => reading.carry rests
  next => exact place.imp fun _ reading => reading.carry rests
  next => exact place.imp fun _ reading => reading.carry rests
  next =>
    obtain ⟨d, e, reading, gathered, slot, word⟩ := place
    exact ⟨d, e, reading.carry rests, gathered.carry rests, slot, word⟩
  next =>
    obtain ⟨d, e, reading, gathered⟩ := place
    exact ⟨d, e, reading.carry rests, gathered.carry rests⟩
  next =>
    obtain ⟨d, e, reading, copied, sentinel, word⟩ := place
    exact ⟨d, e, reading.carry rests, copied.carry rests, sentinel.carry rests, word⟩
  next =>
    obtain ⟨e, reading, sentinel, slot, word⟩ := place
    exact ⟨e, reading.carry rests, sentinel.carry rests, slot, word⟩
  next =>
    obtain ⟨e, reading, sentinel, word, bytes⟩ := place
    refine ⟨e, reading.carry rests, sentinel.carry rests, word, ?_⟩
    rw [rests.rxBuf]
    exact fun stands => bytes (rests.later.trans stands)
  next =>
    obtain ⟨d, e, frame, reading⟩ := place
    exact ⟨d, e, frame, reading.carry rests⟩
  next => exact place.trans rests.later
  next => exact place.trans rests.later
  next => exact place.trans rests.later
  next => exact place.trans rests.later
  next => exact place

/-- What the card does keeps the account. -/
theorem SessionInv.carry (ring : s'.Ring hw) (inv : SessionInv hw first s) :
    SessionInv hw first s' := by
  obtain ⟨-, c, log, place⟩ := inv
  exact ⟨ring, c, rests.log ▸ log, place.carry rests⟩

end Rests

/-! ## One access -/

theorem Session.Stands.slot (stands : s.Stands hw q) :
    s.rx.nextChunk = q % exanicRxNumChunks := by
  rw [stands.names.1, Nat.add_mod_right]

theorem Session.Stands.lap (stands : s.Stands hw q) : s.rx.generation = hw.generation q := by
  rw [stands.names.2, hw.stamp_lap]

/-- The handle names one place only. -/
theorem Session.Stands.unique {p : ℕ} (stands : s.Stands hw p) (also : s.Stands hw q) : p = q := by
  have := position_unique (w := s.written + exanicRxNumChunks) hw.recycled_stamp
    exanicRxNumChunks_pos (by omega) (stands.names.1.symm.trans also.names.1)
    (stands.names.2.symm.trans also.names.2)
    (Nat.add_le_add_right stands.reached _) (by have := stands.bounded; omega)
    (Nat.add_le_add_right also.reached _) (by have := also.bounded; omega)
  omega

theorem Session.Stands.canWrite_iff (stands : s.Stands hw q) :
    s.CanWrite hw ↔ s.written < q + 255 * exanicRxNumChunks :=
  ⟨fun room => room q stands, fun room _ also => stands.unique also ▸ room⟩

/-- What the reader finds at its next chunk. -/
theorem Session.Stands.look (stands : s.Stands hw q) (ring : s.Ring hw) :
    let found := (s.ring s.rx.nextChunk).info
    (s.written = q ∧ found.generation = s.rx.generation - 1) ∨
      (q < s.written ∧ s.written ≤ q + exanicRxNumChunks ∧ found = (hw.chunk q).info ∧
        found.generation = s.rx.generation) ∨
      (q + exanicRxNumChunks < s.written ∧ found.generation ≠ s.rx.generation ∧
        found.generation ≠ s.rx.generation - 1) := by
  have look := hw.look stands.reached stands.bounded
  rw [stands.slot, stands.lap, ring.info]
  rcases look with caught | ⟨written, recent, found⟩ | lapped
  · exact Or.inl caught
  · exact Or.inr (Or.inl ⟨written, recent, found, by rw [found]; rfl⟩)
  · exact Or.inr (Or.inr lapped)

/-- While the sentinel stands, the payload of a chunk behind it is the card's. -/
theorem Session.Ring.bytes (ring : s.Ring hw) (behind : e < hw.position d + exanicRxNumChunks)
    (written : hw.position d < s.written) (stands : s.written ≤ e) :
    payloadBytes (s.ring (hw.position d % exanicRxNumChunks)).payload (hw.word d).length =
      hw.data d := by
  have other : hw.position d % exanicRxNumChunks ≠ s.written % exanicRxNumChunks := by
    intro same
    have apart : exanicRxNumChunks ∣ s.written - hw.position d :=
      (Nat.modEq_iff_dvd' written.le).1 same
    have := Nat.le_of_dvd (by omega) apart
    omega
  have current := (hw.reflects_ringAfter s.written).current
    (p := hw.position d + exanicRxNumChunks) (by omega) (by omega)
  rw [Nat.add_mod_right, hw.content_add] at current
  rw [ring.payload _ other, current]
  rfl

/-- Within 254 laps of the last look, the sentinel stands exactly while the card has not
written past it. -/
theorem Reading.sentinel_stands_iff (reading : Reading hw s c e q) (ring : s.Ring hw)
    (recent : s.written ≤ s.checked + 254 * exanicRxNumChunks) :
    (s.ring s.guard.1).info.generation = s.guard.2 ↔ s.written ≤ e := by
  have behind := reading.behind
  have later := reading.later
  have reached := reading.stands.reached
  have checked := reading.guards.checked
  rw [reading.guards.slot, reading.guards.lap, ring.info]
  exact hw.sentinel_stands_iff (by omega) (by omega)

/-- **Every overrun leaves the reader at the frame the card is writing.** -/
theorem SessionInv.overrun (ring : s.Ring hw) (before : Answered hw first s.log c)
    (started : hw.start c.frame ≤ s.written) {event : Event} (overrun : event.Overrun) :
    SessionInv hw first (s.catchup.finish event) := by
  obtain ⟨frame, low, high⟩ := hw.exists_frame s.written
  have positive := exanicRxNumChunks_pos
  have ahead : c.frame ≤ frame := by
    by_contra earlier
    have := hw.start_strictMono.monotone (Nat.succ_le_of_lt (Nat.lt_of_not_le earlier))
    exact absurd (lt_of_lt_of_le high (this.trans started)) (Nat.lt_irrefl _)
  have infos : (fun i => (s.ring i).info) = fun i => (hw.ringAfter s.written i).info :=
    funext ring.info
  obtain ⟨names, slot, lap⟩ := hw.catchup_ringAfter s.rx low high
  rw [← infos] at names slot lap
  have length := hw.start_succ_le frame
  refine
    ⟨{ ring with }, ⟨frame, 0⟩, .call before (.overrun overrun ahead),
      hw.start frame + exanicRxNumChunks - 1, ?_⟩
  exact
    { valid := Nat.zero_le _
      behind := by
        show _ < hw.start frame + 0 + _
        omega
      later := le_rfl
      guards :=
        { slot
          lap
          checked := by
            show s.written ≤ _
            omega }
      stands :=
        { names
          reached := low
          bounded := by
            show s.written ≤ hw.start frame + 0 + _
            omega } }

/-! ## The reader's steps -/

section Reader

variable {c' : Cursor} {q' : ℕ} {s' : Session} {n size chunk : ℕ} {info : RxChunkInfo}

theorem Session.Stands.same (stands : s.Stands hw q) (rx : s'.rx = s.rx)
    (written : s'.written = s.written) : s'.Stands hw q where
  names := by rw [rx]; exact stands.names
  reached := by rw [written]; exact stands.reached
  bounded := by rw [written]; exact stands.bounded

/-- The place behind an accepted chunk. -/
theorem Session.Stands.advance (stands : s.Stands hw q) (written : q < s.written)
    (rx : s'.rx = s.rx.advance) (same : s'.written = s.written) : s'.Stands hw (q + 1) where
  names := by
    have := ExanicRx.StandsAt.advance hw.stamp_succ stands.names
    rwa [Nat.add_right_comm, ← rx] at this
  reached := by rw [same]; exact written
  bounded := by
    have := stands.bounded
    omega

/-- The call goes on with the same sentinel. -/
theorem Reading.move (reading : Reading hw s c e q) (guard : s'.guard = s.guard)
    (checked : s'.checked = s.checked) (on : q ≤ q') (stands : s'.Stands hw q') :
    Reading hw s' c e q' where
  valid := reading.valid
  behind := reading.behind
  later := reading.later.trans on
  guards :=
    { slot := by rw [guard, reading.guards.slot]
      lap := by rw [guard, reading.guards.lap]
      checked := by rw [checked]; exact reading.guards.checked }
  stands := stands

/-- The next call begins where this one stands. -/
theorem Reading.restart (reading : Reading hw s c e q) (valid : hw.Valid c')
    (place : hw.position c' = q) : Reading hw s c' e (hw.position c') where
  valid := valid
  behind := by
    have := reading.behind
    have := reading.later
    omega
  later := le_rfl
  guards := reading.guards
  stands := by rw [place]; exact reading.stands

/-- The next call begins behind the new sentinel. -/
theorem Reading.renew {p : ℕ} (reading : Reading hw s c e (p + 1)) (sentinel : Sentinel hw s p)
    (rx : s'.rx = s.rx) (idle : s'.pc = .idle) (written : s'.written = s.written)
    (checked : s'.checked = s.written) (kept : s.written ≤ e) (valid : hw.Valid c')
    (place : hw.position c' = p + 1) :
    Reading hw s' c' (p + exanicRxNumChunks) (hw.position c') where
  valid := valid
  behind := by omega
  later := le_rfl
  guards := by
    have guard : s'.guard = (s.rx.sentinelChunk, s.rx.sentinelChunkGeneration.toUInt8) := by
      simp only [Session.guard, idle, rx]
    have behind := reading.behind
    have later := reading.later
    exact
      { slot := by rw [guard, sentinel.slot]
        lap := by rw [guard, sentinel.lap]
        checked := by omega }
  stands := by rw [place]; exact reading.stands.same rx written

theorem Reading.started (reading : Reading hw s c e q) : hw.start c.frame ≤ s.written :=
  (Nat.le_add_right _ _).trans (reading.later.trans reading.stands.reached)

theorem Gathered.begin (valid : hw.Valid c) : Gathered hw s c c e n 0 where
  frame := rfl
  valid := valid
  later := le_rfl
  length := Nat.zero_add _
  bytes _ _ := by rw [Memory.front_zero, List.nil_append]

/-- The session between two calls, or at the beginning of one. -/
theorem SessionInv.between (ring : s.Ring hw) (log : Answered hw first s.log c)
    (idle : s.pc = .idle) (reading : Reading hw s c e (hw.position c)) : SessionInv hw first s :=
  ⟨ring, c, log, by unfold SessionPlace; rw [idle]; exact ⟨e, reading⟩⟩

theorem SessionInv.nothing (ring : s.Ring hw) (log : Answered hw first s.log c)
    (guard : s.guard = (s.rx.sentinelChunk, s.rx.sentinelChunkGeneration.toUInt8))
    (reading : Reading hw s c e (hw.position c)) {event : Event} (nothing : event.Nothing) :
    SessionInv hw first (s.finish event) :=
  .between (c := c) { ring with } (.call log (.nothing nothing)) rfl
    (reading.move guard.symm rfl le_rfl (reading.stands.same rfl rfl))

/-! ### `exanic_receive_frame` -/

theorem SessionInv.frame_entry (ring : s.Ring hw) (log : Answered hw first s.log c)
    (pc : s.pc = .frame n .entry) (reading : Reading hw s c e (hw.position c)) :
    SessionInv hw first (s.frameStep n .entry) := by
  have guard : s.guard = (s.rx.sentinelChunk, s.rx.sentinelChunkGeneration.toUInt8) := by
    simp only [Session.guard, pc]
  rcases reading.stands.look ring with ⟨-, stale⟩ | ⟨written, -, word, current⟩ | ⟨-, other, older⟩
  · have fresh : (s.ring s.rx.nextChunk).info.generation ≠ s.rx.generation :=
      fun current => generation_pred_ne _ (stale.symm.trans current)
    simp only [Session.frameStep, LibCall.step, if_neg fresh, if_pos stale]
    exact SessionInv.nothing ring log guard reading (.frame n s.timestamp)
  · simp only [Session.frameStep, LibCall.step, if_pos current, LibCall.accept]
    refine ⟨{ ring with }, c, log, c, e,
      reading.move ?_ rfl (Nat.le_succ _) (reading.stands.advance written rfl rfl),
      .begin reading.valid, reading.stands.slot, word⟩
    rw [guard]
    simp only [Session.guard, ExanicRx.advance_sentinelChunk,
      ExanicRx.advance_sentinelChunkGeneration]
  · simp only [Session.frameStep, LibCall.step, if_neg other, if_neg older]
    exact ⟨{ ring with }, c, log, reading.started⟩

/-- A full chunk is stored behind what was read, or the frame is too long already. -/
theorem Gathered.copy_more (gathered : Gathered hw s c d e n size) (ring : s.Ring hw)
    (reading : Reading hw s c e (hw.position d + 1)) (more : hw.More d)
    (written : s'.written = s.written)
    (copied : size + exanicRxChunkPayloadSize ≤ n →
      s'.rxBuf = Memory.copy s.rxBuf size
        (s.ring (hw.position d % exanicRxNumChunks)).payload.toList) :
    Gathered hw s' c (hw.nextChunk d) e n (size + exanicRxChunkPayloadSize) where
  frame := (hw.nextChunk_frame more).trans gathered.frame
  valid := hw.valid_nextChunk
  later := by
    rw [hw.position_nextChunk gathered.valid]
    exact Nat.le_succ_of_le gathered.later
  length := by
    have full := gathered.length
    rw [hw.rest_more more, List.length_append, hw.data_more more] at full
    omega
  bytes := by
    intro stands fits
    rw [written] at stands
    have behind := reading.behind
    have later := gathered.later
    have bytes := ring.bytes (d := d) (by omega) reading.stands.reached stands
    rw [(hw.word_length_iff gathered.valid).2 more, payloadBytes_full] at bytes
    rw [copied fits, Memory.front_copy size s.rxBuf (by simp), bytes, List.append_assoc,
      ← hw.rest_more more]
    exact gathered.bytes stands (by omega)

/-- The last chunk completes the frame. -/
theorem Gathered.copy_last (gathered : Gathered hw s c d e n size) (ring : s.Ring hw)
    (reading : Reading hw s c e (hw.position d + 1)) (last : ¬ hw.More d)
    (fits : (hw.rest c).length ≤ n) (written : s'.written = s.written)
    (copied : s'.rxBuf = Memory.copy s.rxBuf size
      ((s.ring (hw.position d % exanicRxNumChunks)).payload.toList.take
        (hw.word d).length.toNat)) : Copied hw s' c d e n size where
  frame := gathered.frame
  valid := gathered.valid
  last := last
  length := by
    have full := gathered.length
    rwa [hw.rest_last gathered.valid last] at full
  fits := fits
  bytes := by
    intro stands
    rw [written] at stands
    have behind := reading.behind
    have later := gathered.later
    have full := gathered.length
    have bytes := ring.bytes (d := d) (by omega) reading.stands.reached stands
    rw [payloadBytes, if_neg (mt (hw.word_length_iff gathered.valid).1 last)] at bytes
    have front := gathered.bytes stands (by omega)
    rw [hw.rest_last gathered.valid last] at full front
    rw [← full, copied, bytes, Memory.front_copy size s.rxBuf rfl, front]

theorem SessionInv.frame_copy (ring : s.Ring hw) (log : Answered hw first s.log c)
    (reading : Reading hw s c e (hw.position d + 1)) (gathered : Gathered hw s c d e n size)
    (pc : s.pc = .frame n
      (.copy (hw.position d % exanicRxNumChunks) (hw.word d) size)) :
    SessionInv hw first
      (s.frameStep n (.copy (hw.position d % exanicRxNumChunks) (hw.word d) size)) := by
  have guard : s.guard = (s.rx.sentinelChunk, s.rx.sentinelChunkGeneration.toUInt8) := by
    simp only [Session.guard, pc]
  by_cases more : hw.More d
  · have full := (hw.word_length_iff gathered.valid).2 more
    simp only [Session.frameStep, LibCall.step, LibCall.processChunk, full, ne_eq, not_true_eq_false,
      if_false]
    refine ⟨{ ring with }, c, log, hw.nextChunk d, e, ?_, ?_⟩
    · rw [hw.position_nextChunk gathered.valid]
      exact reading.move guard.symm rfl le_rfl (reading.stands.same rfl rfl)
    · exact gathered.copy_more ring reading more rfl fun fits => if_pos fits
  · have eof := mt (hw.word_length_iff gathered.valid).1 more
    have full := gathered.length
    have length := hw.word_size gathered.valid
    rw [RxChunkInfo.size, if_neg eof] at length
    rw [hw.rest_last gathered.valid more, ← length] at full
    simp only [Session.frameStep, LibCall.step, LibCall.processChunk, eof, ne_eq, not_false_eq_true,
      if_true, full]
    by_cases tooLong : (hw.rest c).length > n
    · have next := hw.position_nextFrame gathered.valid more
      rw [if_pos tooLong]
      refine .between { ring with } (.call log (.frameTooLong tooLong)) rfl
        (Reading.restart (q := hw.position d + 1) (c := c) (e := e) ?_ hw.valid_nextFrame ?_)
      · exact reading.move guard.symm rfl le_rfl (reading.stands.same rfl rfl)
      · rw [← next, Cursor.nextFrame, Cursor.nextFrame, gathered.frame]
    · rw [if_neg tooLong]
      refine ⟨{ ring with }, c, log, d, e, ?_, ?_, ?_, rfl⟩
      · refine reading.move ?_ rfl le_rfl { reading.stands with }
        rw [guard]
        rfl
      · exact gathered.copy_last ring reading more (Nat.le_of_not_lt tooLong) rfl rfl
      · exact
          { slot := (Nat.add_mod_right _ _).symm
            lap := by
              rw [hw.stamp_lap]
              exact UInt8.toUInt8_toUInt32 _ }

theorem SessionInv.frame_spin (ring : s.Ring hw) (log : Answered hw first s.log c)
    (reading : Reading hw s c e (hw.position d)) (gathered : Gathered hw s c d e n size)
    (pc : s.pc = .frame n (.spin size)) : SessionInv hw first (s.frameStep n (.spin size)) := by
  have guard : s.guard = (s.rx.sentinelChunk, s.rx.sentinelChunkGeneration.toUInt8) := by
    simp only [Session.guard, pc]
  rcases reading.stands.look ring with ⟨-, stale⟩ | ⟨written, -, word, current⟩ | ⟨-, other, older⟩
  · simp only [Session.frameStep, LibCall.step, if_pos stale]
    exact
      ⟨{ ring with }, c, log, d, e,
        reading.move guard.symm rfl le_rfl (reading.stands.same rfl rfl),
        { gathered with }⟩
  · have fresh : (s.ring s.rx.nextChunk).info.generation ≠ s.rx.generation - 1 :=
      fun stale => generation_pred_ne _ (stale.symm.trans current)
    simp only [Session.frameStep, LibCall.step, if_neg fresh, if_neg (not_not.2 current),
      LibCall.accept]
    refine ⟨{ ring with }, c, log, d, e,
      reading.move ?_ rfl (Nat.le_succ _) (reading.stands.advance written rfl rfl),
      { gathered with }, reading.stands.slot, word⟩
    rw [guard]
    simp only [Session.guard, ExanicRx.advance_sentinelChunk,
      ExanicRx.advance_sentinelChunkGeneration]
  · simp only [Session.frameStep, LibCall.step, if_neg older, if_pos other]
    exact ⟨{ ring with }, c, log, reading.started⟩

/-- What `exanic_receive_frame` returns for a frame it has copied. -/
def RxChunkInfo.ret (info : RxChunkInfo) (size : ℕ) : Int :=
  if info.frameStatus &&& exanicRxFrameErrorMask ≠ 0 then
    -(info.frameStatus &&& exanicRxFrameErrorMask).toNat
  else (size + info.length.toNat : ℕ)

theorem Copied.answers (copied : Copied hw s c d e n size) (stands : s.written ≤ e) :
    Answers hw c
      (.frame n ((hw.word d).ret size) (Memory.front ((hw.word d).ret size).toNat s.rxBuf)
        (hw.word d).timestamp) c.nextFrame := by
  have eof := mt (hw.word_length_iff copied.valid).1 copied.last
  have length := hw.word_size copied.valid
  rw [RxChunkInfo.size, if_neg eof] at length
  have error : ((hw.word d).frameStatus &&& exanicRxFrameErrorMask).toNat = hw.error c := by
    rw [show hw.error c = hw.error d by rw [Hardware.error, Hardware.error, copied.frame]]
    exact hw.word_error copied.valid copied.last
  rw [RxChunkInfo.ret, length, copied.length, hw.word_timestamp copied.valid copied.last,
    copied.frame, error]
  by_cases clean : (hw.word d).frameStatus &&& exanicRxFrameErrorMask = 0
  · rw [if_neg (not_not.2 clean), Int.toNat_natCast, copied.bytes stands]
    exact .frame copied.fits (by rw [← error, clean]; rfl)
  · rw [if_pos clean, Int.toNat_neg_natCast, Memory.front_zero]
    refine .frameDamaged copied.fits fun none => clean ?_
    exact UInt8.toNat_inj.1 (error.trans none)

theorem SessionInv.frame_check {sentinelChunk : ℕ} {sentinelChunkGeneration : UInt8}
    (ring : s.Ring hw) (log : Answered hw first s.log c)
    (reading : Reading hw s c e (hw.position d + 1)) (copied : Copied hw s c d e n size)
    (sentinel : Sentinel hw s (hw.position d)) (recent : s.Recent)
    (pc : s.pc = .frame n (.check sentinelChunk sentinelChunkGeneration (hw.word d) size)) :
    SessionInv hw first
      (s.frameStep n (.check sentinelChunk sentinelChunkGeneration (hw.word d) size)) := by
  simp only [Session.Recent, pc] at recent
  have stands := reading.sentinel_stands_iff ring recent
  have guard : s.guard = (sentinelChunk, sentinelChunkGeneration) := by
    simp only [Session.guard, pc]
  rw [guard] at stands
  by_cases kept : (s.ring sentinelChunk).info.generation = sentinelChunkGeneration
  · have next : hw.position c.nextFrame = hw.position d + 1 := by
      rw [← hw.position_nextFrame copied.valid copied.last, Cursor.nextFrame, Cursor.nextFrame,
        copied.frame]
    simp only [Session.frameStep, LibCall.step, if_neg (not_not.2 kept)]
    exact .between { ring with } (.call log (copied.answers (stands.1 kept))) rfl
      (reading.renew sentinel rfl rfl rfl rfl (stands.1 kept) hw.valid_nextFrame next)
  · simp only [Session.frameStep, LibCall.step, if_pos kept]
    exact ⟨{ ring with }, c, log, reading.started⟩

theorem SessionInv.frame_lapped (ring : s.Ring hw) (log : Answered hw first s.log c)
    (started : hw.start c.frame ≤ s.written) :
    SessionInv hw first (s.frameStep n .lapped) := by
  simp only [Session.frameStep, LibCall.step]
  exact SessionInv.overrun ring log started (.frame n s.timestamp)

/-! ### One chunk at a time -/

variable {ex : Bool}

theorem SessionInv.chunk_entry (ring : s.Ring hw) (log : Answered hw first s.log c)
    (pc : s.pc = .chunk ex .entry) (reading : Reading hw s c e (hw.position c)) :
    SessionInv hw first (s.chunkStep ex .entry) := by
  have guard : s.guard = (s.rx.sentinelChunk, s.rx.sentinelChunkGeneration.toUInt8) := by
    simp only [Session.guard, pc]
  rcases reading.stands.look ring with ⟨-, stale⟩ | ⟨written, -, word, current⟩ | ⟨-, other, older⟩
  · have fresh : (s.ring s.rx.nextChunk).info.generation ≠ s.rx.generation :=
      fun current => generation_pred_ne _ (stale.symm.trans current)
    simp only [Session.chunkStep, if_neg fresh, if_pos stale]
    exact SessionInv.nothing ring log guard reading (.chunk ex)
  · simp only [Session.chunkStep, if_pos current]
    refine ⟨{ ring with }, c, log, e, reading.move guard.symm rfl (Nat.le_succ _) ?_, ?_,
      reading.stands.slot, word⟩
    · have moved : Session.Stands
          { s with
            rx.sentinelChunk := s.rx.nextChunk
            rx.sentinelChunkGeneration := (s.ring s.rx.nextChunk).info.generation.toUInt32 }
          hw (hw.position c) :=
        { reading.stands with }
      exact moved.advance written rfl rfl
    · exact
        { slot := by
            rw [ExanicRx.advance_sentinelChunk]
            exact reading.stands.names.1
          lap := by
            rw [ExanicRx.advance_sentinelChunkGeneration, UInt8.toUInt8_toUInt32, word, hw.stamp_lap]
            rfl }
  · simp only [Session.chunkStep, if_neg other, if_neg older]
    exact ⟨{ ring with }, c, log, reading.started⟩

theorem SessionInv.chunk_copy {sentinelChunk : ℕ} {sentinelChunkGeneration : UInt8}
    (ring : s.Ring hw) (log : Answered hw first s.log c)
    (reading : Reading hw s c e (hw.position c + 1)) (sentinel : Sentinel hw s (hw.position c))
    (pc : s.pc = .chunk ex (.copy (hw.position c % exanicRxNumChunks) (hw.word c) sentinelChunk
      sentinelChunkGeneration)) :
    SessionInv hw first
      (s.chunkStep ex (.copy (hw.position c % exanicRxNumChunks) (hw.word c) sentinelChunk
        sentinelChunkGeneration)) := by
  simp only [Session.chunkStep]
  refine ⟨{ ring with }, c, log, e, reading.move ?_ rfl le_rfl (reading.stands.same rfl rfl),
    { sentinel with }, rfl, ?_⟩
  · simp only [Session.guard, pc]
  · intro stands
    have bytes := ring.bytes reading.behind reading.stands.reached stands
    have front : Memory.front (0 + (hw.data c).length) (Memory.copy s.rxBuf 0 (hw.data c)) = _ :=
      Memory.front_copy 0 s.rxBuf rfl
    rw [Nat.zero_add, Memory.front_zero, List.nil_append] at front
    rw [hw.word_size reading.valid]
    show Memory.front _ (Memory.copy s.rxBuf 0 _) = _
    rw [bytes, front]

/-- The calls without `ex` refuse the last chunk of a frame with errors. -/
theorem Hardware.refused_iff (valid : hw.Valid c) :
    (!ex && (hw.word c).length ≠ 0 && (hw.word c).error ≠ 0) = true ↔
      ex = false ∧ ¬ hw.More c ∧ hw.error c ≠ 0 := by
  have eof := hw.word_length_iff valid
  by_cases more : hw.More c
  · simp [eof.2 more, more]
  · have error := hw.word_error valid more
    simp [mt eof.1 more, more, error]

theorem Hardware.accepted_of (valid : hw.Valid c)
    (accepts : ¬ (!ex && (hw.word c).length ≠ 0 && (hw.word c).error ≠ 0) = true) :
    ex = true ∨ hw.More c ∨ hw.error c = 0 := by
  rw [hw.refused_iff valid] at accepts
  by_contra refuses
  exact accepts
    ⟨by simpa using fun yes => refuses (.inl yes), fun more => refuses (.inr (.inl more)),
      fun clean => refuses (.inr (.inr clean))⟩

theorem Hardware.more_chunks (valid : hw.Valid c) :
    ((hw.word c).length == 0) = decide (hw.More c) := by
  rw [Bool.eq_iff_iff]
  simpa using hw.word_length_iff valid

theorem Session.chunkEvent_answers (valid : hw.Valid c)
    (copied : Memory.front (hw.word c).size s.rxBuf = hw.data c) :
    Answers hw c (s.chunkEvent ex (hw.word c)) (hw.nextChunk c) := by
  unfold Session.chunkEvent
  split
  next refuses =>
    obtain ⟨rfl, last, damaged⟩ := (hw.refused_iff valid).1 refuses
    rw [hw.word_error valid last, Hardware.nextChunk, if_neg last]
    exact .chunkDamaged last damaged
  next accepts =>
    rw [copied, hw.word_size valid, hw.more_chunks valid]
    exact .chunk (hw.accepted_of valid accepts)

theorem SessionInv.chunk_check {sentinelChunk : ℕ} {sentinelChunkGeneration : UInt8}
    (ring : s.Ring hw) (log : Answered hw first s.log c)
    (reading : Reading hw s c e (hw.position c + 1)) (sentinel : Sentinel hw s (hw.position c))
    (copied : s.written ≤ e → Memory.front (hw.word c).size s.rxBuf = hw.data c)
    (recent : s.Recent) (pc : s.pc = .chunk ex (.check (hw.word c) sentinelChunk sentinelChunkGeneration)) :
    SessionInv hw first
      (s.chunkStep ex (.check (hw.word c) sentinelChunk sentinelChunkGeneration)) := by
  simp only [Session.Recent, pc] at recent
  have stands := reading.sentinel_stands_iff ring recent
  have guard : s.guard = (sentinelChunk, sentinelChunkGeneration) := by
    simp only [Session.guard, pc]
  rw [guard] at stands
  by_cases kept : (s.ring sentinelChunk).info.generation = sentinelChunkGeneration
  · simp only [Session.chunkStep, if_neg (not_not.2 kept)]
    exact .between { ring with }
      (.call log (Session.chunkEvent_answers reading.valid (copied (stands.1 kept)))) rfl
      (reading.renew sentinel rfl rfl rfl rfl (stands.1 kept) hw.valid_nextChunk
        (hw.position_nextChunk reading.valid))
  · simp only [Session.chunkStep, if_pos kept]
    exact ⟨{ ring with }, c, log, reading.started⟩

/-! ### In place, and skipping -/

/-- The number a call in place gives back names the chunk. -/
theorem Session.Stands.chunkId (stands : s.Stands hw (hw.position c)) :
    s.rx.chunkId = hw.chunkId c := by
  rw [ExanicRx.chunkId, stands.slot, stands.lap]
  rfl

theorem Session.inplaceEvent_answers (reading : Reading hw s c e (hw.position c)) :
    Answers hw c (s.inplaceEvent ex (hw.word c)) (hw.nextChunk c) := by
  have valid := reading.valid
  unfold Session.inplaceEvent
  rw [reading.stands.chunkId]
  split
  next refuses =>
    obtain ⟨rfl, last, damaged⟩ := (hw.refused_iff valid).1 refuses
    rw [hw.word_error valid last, Hardware.nextChunk, if_neg last]
    exact .inplaceDamaged last damaged
  next accepts =>
    rw [hw.word_size valid, hw.more_chunks valid]
    exact .inplace (hw.accepted_of valid accepts)

theorem SessionInv.inplace_load (ring : s.Ring hw) (log : Answered hw first s.log c)
    (pc : s.pc = .inplace ex false) (reading : Reading hw s c e (hw.position c)) :
    SessionInv hw first (s.inplaceStep ex false) := by
  have guard : s.guard = (s.rx.sentinelChunk, s.rx.sentinelChunkGeneration.toUInt8) := by
    simp only [Session.guard, pc]
  rcases reading.stands.look ring with ⟨-, stale⟩ | ⟨written, -, word, current⟩ | ⟨-, other, older⟩
  · have fresh : (s.ring s.rx.nextChunk).info.generation ≠ s.rx.generation :=
      fun current => generation_pred_ne _ (stale.symm.trans current)
    simp only [Session.inplaceStep, Bool.false_eq_true, if_false, if_neg fresh, if_pos stale]
    exact SessionInv.nothing ring log guard reading (.inplace ex)
  · simp only [Session.inplaceStep, Bool.false_eq_true, if_false, if_pos current]
    rw [word]
    refine .between { ring with } (.call log (Session.inplaceEvent_answers reading)) rfl
      (Reading.restart (q := hw.position c + 1) (c := c) (e := e) ?_ hw.valid_nextChunk
        (hw.position_nextChunk reading.valid))
    refine reading.move ?_ rfl (Nat.le_succ _) (reading.stands.advance written rfl rfl)
    rw [guard]
    simp only [Session.guard, Session.finish, ExanicRx.advance_sentinelChunk,
      ExanicRx.advance_sentinelChunkGeneration]
  · simp only [Session.inplaceStep, Bool.false_eq_true, if_false, if_neg other, if_neg older]
    exact ⟨{ ring with }, c, log, reading.started⟩

theorem SessionInv.abort_load (ring : s.Ring hw) (log : Answered hw first s.log c)
    (pc : s.pc = .abort false) (frame : d.frame = c.frame)
    (reading : Reading hw s d e (hw.position d)) :
    SessionInv hw first (s.abortStep false) := by
  have guard : s.guard = (s.rx.sentinelChunk, s.rx.sentinelChunkGeneration.toUInt8) := by
    simp only [Session.guard, pc]
  rcases reading.stands.look ring with ⟨-, stale⟩ | ⟨written, -, word, current⟩ | ⟨-, other, older⟩
  · have fresh : (s.ring s.rx.nextChunk).info.generation ≠ s.rx.generation :=
      fun current => generation_pred_ne _ (stale.symm.trans current)
    simp only [Session.abortStep, Bool.false_eq_true, if_false, if_neg fresh, if_neg (not_not.2 stale)]
    exact ⟨{ ring with }, c, log, by unfold SessionPlace; rw [pc]; exact ⟨d, e, frame, reading⟩⟩
  · have next := hw.position_nextChunk reading.valid
    have moved : Reading hw { s with rx := s.rx.advance } (hw.nextChunk d) e
        (hw.position (hw.nextChunk d)) := by
      refine Reading.restart (q := hw.position d + 1) (c := d) ?_ hw.valid_nextChunk next
      refine reading.move ?_ rfl (Nat.le_succ _) (reading.stands.advance written rfl rfl)
      simp only [Session.guard, pc, ExanicRx.advance_sentinelChunk,
        ExanicRx.advance_sentinelChunkGeneration]
    simp only [Session.abortStep, Bool.false_eq_true, if_false, if_pos current]
    rw [show (s.ring s.rx.nextChunk).info = hw.word d from word]
    by_cases more : hw.More d
    · rw [if_neg (not_not.2 ((hw.word_length_iff reading.valid).2 more))]
      refine ⟨{ ring with }, c, log, ?_⟩
      unfold SessionPlace
      rw [pc]
      refine ⟨hw.nextChunk d, e, (hw.nextChunk_frame more).trans frame,
        moved.move ?_ rfl le_rfl (moved.stands.same rfl rfl)⟩
      simp only [Session.guard, pc]
    · have error : (hw.word d).error = hw.error c := by
        rw [hw.word_error reading.valid more, Hardware.error, Hardware.error, frame]
      have next : hw.nextChunk d = c.nextFrame := by
        rw [Hardware.nextChunk, if_neg more, Cursor.nextFrame, Cursor.nextFrame, frame]
      rw [if_pos (mt (hw.word_length_iff reading.valid).1 more)]
      rw [next] at moved
      refine .between { ring with } (.call log ?_) rfl (moved.move ?_ rfl le_rfl
        (moved.stands.same rfl rfl))
      · rw [error]
        exact .abort
      · simp only [Session.guard, Session.finish, pc]
  · simp only [Session.abortStep, Bool.false_eq_true, if_false, if_neg other, if_pos older]
    have started := reading.started
    rw [frame] at started
    exact ⟨{ ring with }, c, log, started⟩

/-! ## Runs -/

/-- **One access of the reader keeps the account.** -/
theorem SessionInv.read (inv : SessionInv hw first s) (recent : s.Recent) :
    SessionInv hw first s.read := by
  obtain ⟨ring, c, log, place⟩ := inv
  unfold SessionPlace at place
  unfold Session.read
  split at place
  next pc =>
    obtain ⟨e, reading⟩ := place
    rw [pc]
    exact .between ring log pc reading
  next pc =>
    obtain ⟨e, reading⟩ := place
    rw [pc]
    exact SessionInv.frame_entry ring log pc reading
  next pc =>
    obtain ⟨e, reading⟩ := place
    rw [pc]
    exact SessionInv.chunk_entry ring log pc reading
  next pc =>
    obtain ⟨e, reading⟩ := place
    rw [pc]
    exact SessionInv.inplace_load ring log pc reading
  next pc =>
    obtain ⟨d, e, reading, gathered, rfl, rfl⟩ := place
    rw [pc]
    exact SessionInv.frame_copy ring log reading gathered pc
  next pc =>
    obtain ⟨d, e, reading, gathered⟩ := place
    rw [pc]
    exact SessionInv.frame_spin ring log reading gathered pc
  next pc =>
    obtain ⟨d, e, reading, copied, sentinel, rfl⟩ := place
    rw [pc]
    exact SessionInv.frame_check ring log reading copied sentinel recent pc
  next pc =>
    obtain ⟨e, reading, sentinel, rfl, rfl⟩ := place
    rw [pc]
    exact SessionInv.chunk_copy ring log reading sentinel pc
  next pc =>
    obtain ⟨e, reading, sentinel, rfl, copied⟩ := place
    rw [pc]
    exact SessionInv.chunk_check ring log reading sentinel copied recent pc
  next pc =>
    obtain ⟨d, e, frame, reading⟩ := place
    rw [pc]
    exact SessionInv.abort_load ring log pc frame reading
  next pc =>
    rw [pc]
    exact SessionInv.frame_lapped ring log place
  next pc =>
    rw [pc]
    exact SessionInv.overrun ring log place (.chunk _)
  next pc =>
    rw [pc]
    exact SessionInv.overrun ring log place (.inplace _)
  next pc =>
    rw [pc]
    exact SessionInv.overrun ring log place .abort
  next => exact place.elim

/-- A call begins where the one before it stopped. -/
theorem SessionInv.call {pc : SessionPc} (inv : SessionInv hw first s) (idle : s.pc = .idle)
    (starts : Session.Starts pc) : SessionInv hw first { s with pc } := by
  obtain ⟨ring, c, log, place⟩ := inv
  unfold SessionPlace at place
  rw [idle] at place
  obtain ⟨e, reading⟩ := place
  have begun : Reading hw { s with pc } c e (hw.position c) := by
    refine reading.move ?_ rfl le_rfl (reading.stands.same rfl rfl)
    cases starts <;> simp only [Session.guard, idle]
  refine ⟨{ ring with }, c, log, ?_⟩
  cases starts with
  | frame n => exact ⟨e, begun⟩
  | chunk ex => exact ⟨e, begun⟩
  | inplace ex => exact ⟨e, begun⟩
  | abort => exact ⟨c, e, rfl, begun⟩

theorem Session.Initial.inv (initial : s.Initial hw first) : SessionInv hw first s := by
  have positive := exanicRxNumChunks_pos
  have checked := initial.checked
  refine .between (c := ⟨first, 0⟩) (e := hw.start first + exanicRxNumChunks - 1)
    ⟨fun i => by rw [initial.ring], fun i _ => by rw [initial.ring]⟩ (initial.log ▸ .start)
    initial.idle ?_
  exact
    { valid := Nat.zero_le _
      behind := by
        show _ < hw.start first + 0 + _
        omega
      later := le_rfl
      guards :=
        { slot := by
            simp only [Session.guard, initial.idle]
            exact initial.sentinelChunk
          lap := by
            simp only [Session.guard, initial.idle]
            exact initial.sentinelChunkGeneration
          checked := by omega }
      stands := initial.stands }

/-- What the catch-up of `exanic_acquire_rx_buffer` leaves, whatever the card has written. -/
theorem Session.initial_acquired (ring : s.ring = hw.ringAfter s.written) (idle : s.pc = .idle)
    (log : s.log = []) : ∃ first, s.catchup.Initial hw first := by
  obtain ⟨first, low, high⟩ := hw.exists_frame s.written
  obtain ⟨names, slot, lap⟩ := hw.catchup_ringAfter s.rx low high
  have length := hw.start_succ_le first
  rw [← ring] at names slot lap
  refine ⟨first, ring, ⟨names, low, ?_⟩, slot, lap, ?_, idle, log⟩
  · show s.written ≤ _
    omega
  · show s.written < _
    omega

/-- **One step keeps the account.** -/
theorem session_inv_step (step : SessionStep hw s s') (inv : SessionInv hw first s) :
    SessionInv hw first s' := by
  cases step with
  | scribble payload =>
      exact inv.carry (Session.rests_scribble payload) (inv.ring.scribble payload)
  | write room => exact inv.carry (Session.rests_write room) inv.ring.write
  | call idle starts => exact inv.call idle starts
  | read recent => exact inv.read recent

/-- **A run keeps the account.** -/
theorem session_inv_run (initial : s.Initial hw first)
    (run : Relation.ReflTransGen (SessionStep hw) s s') : SessionInv hw first s' := by
  induction run with
  | refl => exact initial.inv
  | tail _ step ih => exact session_inv_step step ih

/-- **Whatever calls are made while the card writes, every one of them answers as the
abstract reader does.**  No chunk is handed over that is not what the card wrote, and
only an overrun moves the reader elsewhere than to the next chunk or frame. -/
theorem session_answered (initial : s.Initial hw first)
    (run : Relation.ReflTransGen (SessionStep hw) s s') :
    ∃ c, Answered hw first s'.log c := by
  obtain ⟨-, c, log, -⟩ := session_inv_run initial run
  exact ⟨c, log⟩

end Reader

/-! ## Poles: 256 laps in place, an overrun, and a frame -/

namespace Poles

variable {p w : ℕ} {log : List Event}

/-- The handle right after it was acquired, before the first chunk. -/
def opened : Session where
  ring := card.ringAfter 0
  written := 0
  rx := { nextChunk := 0, generation := 0, sentinelChunk := 16383, sentinelChunkGeneration := 255 }
  rxBuf := fun _ => 0
  timestamp := 0
  pc := .idle
  log := []
  checked := 0

theorem opened_initial : opened.Initial card 0 where
  ring := rfl
  stands := ⟨⟨by decide, by decide⟩, le_rfl, by decide⟩
  sentinelChunk := by decide
  sentinelChunkGeneration := by decide
  checked := by decide
  idle := rfl
  log := rfl

/-- A session between two calls: the reader stands at chunk `p`, the card at `w`. -/
structure Comes (p w : ℕ) (log : List Event) (s : Session) : Prop where
  run : Relation.ReflTransGen (SessionStep card) opened s
  ring : s.Ring card
  stands : s.Stands card p
  idle : s.pc = .idle
  written : s.written = w
  log : s.log = log

theorem comes_opened : Comes 0 0 [] opened :=
  ⟨.refl, ⟨fun _ => rfl, fun _ _ => rfl⟩, opened_initial.stands, rfl, rfl, rfl⟩

theorem Comes.write (comes : Comes p w log s) (room : w < p + 255 * exanicRxNumChunks) :
    SessionStep card s (s.write card) ∧ Comes p (w + 1) log (s.write card) := by
  obtain rfl := comes.written
  have canWrite := comes.stands.canWrite_iff.2 room
  exact ⟨.write canWrite, comes.run.tail (.write canWrite), comes.ring.write,
    comes.stands.carry (Session.rests_write canWrite), comes.idle, rfl, comes.log⟩

theorem Comes.writes (comes : Comes p w log s) (n : ℕ)
    (room : w + n ≤ p + 255 * exanicRxNumChunks) :
    ∃ t, Relation.ReflTransGen (SessionStep card) s t ∧ Comes p (w + n) log t := by
  induction n with
  | zero => exact ⟨s, .refl, comes⟩
  | succ n ih =>
      obtain ⟨t, run, before⟩ := ih (by omega)
      obtain ⟨step, after⟩ := before.write (by omega)
      exact ⟨_, run.tail step, after⟩

/-- A call begins. -/
theorem Comes.call (comes : Comes p w log s) {pc : SessionPc} (starts : Session.Starts pc) :
    Relation.ReflTransGen (SessionStep card) opened { s with pc } :=
  comes.run.tail (.call comes.idle starts)

/-- What a call in place returns for chunk `p`. -/
def handed (p : ℕ) : Event :=
  .inplace true (card.chunk p).info.size (some (card.chunkId ⟨p, 0⟩)) (some false)
    (some (card.chunk p).info)

theorem card_position (p : ℕ) : card.position ⟨p, 0⟩ = p := card_start p

theorem card_length (p : ℕ) : (card.chunk p).info.length ≠ 0 := by
  have last := card.chunk_length_last p
  rwa [card_start, card_body, List.length_nil, Nat.add_zero] at last

theorem Comes.inplace (comes : Comes p w log s) (written : p < w)
    (recent : w ≤ p + exanicRxNumChunks) :
    Comes (p + 1) w (log ++ [handed p]) ({ s with pc := .inplace true false } : Session).read := by
  obtain rfl := comes.written
  have stands : s.Stands card (card.position ⟨p, 0⟩) := by
    rw [card_position]
    exact comes.stands
  rcases comes.stands.look comes.ring with ⟨caught, -⟩ | ⟨-, -, word, current⟩ | ⟨passed, -⟩
  · omega
  · have event : ({ s with pc := .inplace true false } : Session).read =
        Session.finish { s with rx := s.rx.advance } (handed p) := by
      simp only [Session.read, Session.inplaceStep, Bool.false_eq_true, if_false, if_pos current]
      rw [word, handed, ← stands.chunkId]
      simp [Session.inplaceEvent, Session.finish, ExanicRx.chunkId, card_length]
    refine ⟨(comes.call (.inplace true)).tail (.read trivial), ?_, ?_, ?_, ?_, ?_⟩ <;> rw [event]
    · exact { comes.ring with }
    · exact comes.stands.advance written rfl rfl
    · rfl
    · rfl
    · exact congrArg (· ++ [handed p]) comes.log
  · omega

/-- The card writes and the program takes, chunk after chunk. -/
theorem comes_inplaces (n : ℕ) : ∃ s, Comes n n ((List.range n).map handed) s := by
  induction n with
  | zero => exact ⟨opened, comes_opened⟩
  | succ n ih =>
      obtain ⟨s, comes⟩ := ih
      have positive := exanicRxNumChunks_pos
      rw [List.range_succ, List.map_append]
      exact ⟨_, (comes.write (by omega)).2.inplace (Nat.lt_succ_self n) (by omega)⟩

/-- The sentinel stands right before chunk `p`, and was set there. -/
structure Armed (p : ℕ) (s : Session) : Prop where
  slot : s.rx.sentinelChunk = (p + exanicRxNumChunks - 1) % exanicRxNumChunks
  lap : s.rx.sentinelChunkGeneration.toUInt8 =
    card.stamp ((p + exanicRxNumChunks - 1) / exanicRxNumChunks)
  checked : s.checked = p

theorem Armed.write (armed : Armed p s) : Armed p (s.write card) := { armed with }

/-- A call in place that was lapped. -/
theorem Comes.lapped (comes : Comes p w log s) (passed : p + exanicRxNumChunks < w) :
    ∃ t, Comes w w (log ++ [.inplace true (-exanicRxFrameSwovfl) none none none]) t ∧ Armed w t := by
  obtain rfl := comes.written
  let s₁ : Session := { s with pc := .inplace true false }
  have first : s₁.read = { s with pc := .inplace true true } := by
    rcases comes.stands.look comes.ring with ⟨caught, -⟩ | ⟨-, recent, -⟩ | ⟨-, other, older⟩
    · omega
    · omega
    · simp only [s₁, Session.read, Session.inplaceStep, Bool.false_eq_true, if_false, if_neg other,
        if_neg older]
  have infos : (fun i => (s.ring i).info) = fun i => (card.ringAfter s.written i).info :=
    funext comes.ring.info
  have started : card.start s.written ≤ s.written := (card_start _).le
  have inside : s.written < card.start (s.written + 1) := by
    rw [card_start]
    exact Nat.lt_succ_self _
  obtain ⟨names, slot, lap⟩ := card.catchup_ringAfter s.rx started inside
  rw [← infos, card_start] at names slot lap
  have run := ((comes.call (.inplace true)).tail (.read trivial)).tail (.read (by
    show s₁.read.Recent
    rw [first]
    trivial))
  have second : s₁.read.read =
      s.catchup.finish (.inplace true (-exanicRxFrameSwovfl) none none none) := by
    rw [first]
    rfl
  refine ⟨s₁.read.read, ⟨run, ?_, ?_, ?_, ?_, ?_⟩, ?_⟩ <;> rw [second]
  · exact { comes.ring with }
  · exact ⟨names, le_rfl, Nat.le_add_right _ _⟩
  · rfl
  · rfl
  · exact congrArg (· ++ [_]) comes.log
  · exact ⟨slot, lap, rfl⟩

theorem card_word {p : ℕ} (later : p ≠ 0) : (card.word ⟨p, 0⟩).length = 1 ∧
    (card.word ⟨p, 0⟩).frameStatus = 0 ∧ (card.word ⟨p, 0⟩).timestamp = 0 ∧
      card.data ⟨p, 0⟩ = [2] := by
  have entry : card.stream.entry (card.position ⟨p, 0⟩) = (card.frame 1).last := by
    rw [card_position, card_last, card_frame_later later]
  refine ⟨?_, ?_, ?_, ?_⟩
  · show (card.stream.entry (card.position ⟨p, 0⟩)).length = 1
    rw [entry]
    rfl
  · show (card.stream.entry (card.position ⟨p, 0⟩)).frameStatus = 0
    rw [entry]
    rfl
  · show (card.stream.entry (card.position ⟨p, 0⟩)).timestamp = 0
    rw [entry]
    rfl
  · rw [Hardware.data, entry]
    rfl

/-- The first access of such a call loads the word. -/
theorem Comes.frame_load (comes : Comes p (p + 1) log s) :
    ({ s with pc := .frame 16 .entry } : Session).read =
      { s with
        rx := s.rx.advance
        pc := .frame 16 (.copy s.rx.nextChunk (card.word ⟨p, 0⟩) 0) } := by
  have written := comes.written
  have positive := exanicRxNumChunks_pos
  rcases comes.stands.look comes.ring with ⟨caught, -⟩ | ⟨-, -, word, current⟩ | ⟨passed, -⟩
  · omega
  · have word : (s.ring s.rx.nextChunk).info = card.word ⟨p, 0⟩ := by
      rw [word, Hardware.word, card_position]
    rw [word] at current
    simp only [Session.read, Session.frameStep, LibCall.step, if_pos current, LibCall.accept,
      LibPc.checks, word, Bool.false_eq_true, if_false]
  · omega

/-- A call that copies a frame. -/
theorem Comes.frame (comes : Comes p (p + 1) log s) (armed : Armed p s) (later : p ≠ 0) :
    ∃ t, Comes (p + 1) (p + 1) (log ++ [.frame 16 1 [2] 0]) t := by
  have written := comes.written
  have size : exanicRxNumChunks = 16384 := by decide
  obtain ⟨length, status, timestamp, data⟩ := card_word later
  have whole := comes.ring.bytes (d := ⟨p, 0⟩) (e := p + exanicRxNumChunks - 1)
    (by rw [card_position]; omega) (by rw [card_position]; omega) (by omega)
  rw [card_position, length, data] at whole
  let s₁ : Session := { s with pc := .frame 16 .entry }
  have first : s₁.read = _ := comes.frame_load
  have taken : (s.ring s.rx.nextChunk).payload.toList.take 1 = [2] := by
    rw [comes.stands.slot]
    exact whole
  let rx : ExanicRx :=
    { s.rx.advance with
      sentinelChunk := s.rx.nextChunk
      sentinelChunkGeneration := (card.word ⟨p, 0⟩).generation.toUInt32 }
  have second : s₁.read.read =
      { s with
        rx
        rxBuf := Memory.copy s.rxBuf 0 [2]
        pc := .frame 16 (.check s.rx.advance.sentinelChunk
          s.rx.advance.sentinelChunkGeneration.toUInt8 (card.word ⟨p, 0⟩) 0) } := by
    rw [first]
    simp only [Session.read, Session.frameStep, LibCall.step, LibCall.processChunk, length,
      LibPc.checks, Bool.false_eq_true, if_false]
    simp [rx, taken]
  have recent : s₁.read.read.Recent := by
    rw [second]
    show s.written ≤ s.checked + 254 * exanicRxNumChunks
    rw [armed.checked]
    omega
  have kept : (s.ring s.rx.advance.sentinelChunk).info.generation =
      s.rx.advance.sentinelChunkGeneration.toUInt8 := by
    rw [ExanicRx.advance_sentinelChunk, ExanicRx.advance_sentinelChunkGeneration, armed.slot,
      armed.lap, comes.ring.info]
    exact (card.sentinel_stands_iff (by omega) (by omega)).2 (by omega)
  have front : Memory.front 1 (Memory.copy s.rxBuf 0 [2]) = [2] := by
    simpa using Memory.front_copy 0 s.rxBuf (rfl : [(2 : UInt8)].length = 1)
  have third : s₁.read.read.read =
      Session.finish
        { s with
          rx
          rxBuf := Memory.copy s.rxBuf 0 [2]
          timestamp := 0
          checked := s.written }
        (.frame 16 1 [2] 0) := by
    rw [second]
    simp only [Session.read, Session.frameStep, LibCall.step, kept, status, timestamp, length,
      LibPc.checks, if_true]
    simp [front, Session.finish]
  have run := (((comes.call (.frame 16)).tail (.read trivial)).tail (.read (by
    show s₁.read.Recent
    rw [first]
    trivial))).tail (.read recent)
  refine ⟨s₁.read.read.read, run, ?_, ?_, ?_, ?_, ?_⟩ <;> rw [third]
  · exact { comes.ring with }
  · have advanced : Session.Stands { s with rx := s.rx.advance } card (p + 1) :=
      comes.stands.advance (by omega) rfl rfl
    exact { advanced with }
  · rfl
  · exact written
  · exact congrArg (· ++ [_]) comes.log

end Poles

/-- 256 laps of chunks taken in place, a lap and a chunk missed, and a frame copied. -/
theorem session_answered_laps : ∃ t : Session,
    t.log = (List.range (256 * exanicRxNumChunks)).map Poles.handed ++
      [.inplace true (-exanicRxFrameSwovfl) none none none] ++ [.frame 16 1 [2] 0] ∧
      ∃ c, Answered Poles.card 0 t.log c := by
  have positive := exanicRxNumChunks_pos
  obtain ⟨_, taken⟩ := Poles.comes_inplaces (256 * exanicRxNumChunks)
  obtain ⟨_, -, missed⟩ := taken.writes (exanicRxNumChunks + 1) (by omega)
  obtain ⟨_, lapped, armed⟩ := missed.lapped (by omega)
  obtain ⟨t, framed⟩ := (lapped.write (by omega)).2.frame armed.write (by omega)
  exact ⟨t, framed.log, session_answered Poles.opened_initial framed.run⟩

end ExanicCapture.Rx
