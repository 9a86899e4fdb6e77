/-
# Rx.Refinement -- every run's log is an account of the abstract receiver

`Inv` holds at the start of a run and every step keeps it, one lemma for each
place of the call (`read_entry`, `read_copy`, `read_spin`, `read_lapped`).  What a
load can see is said once, by `StandsAt.look`: at the position it stands at, the
reader finds the writer, the chunk it wants, or a lap it has lost.
-/
import ExanicCapture.Rx.System

namespace ExanicCapture.Rx

set_option autoImplicit false

open Theory Theory.LapRing

variable {hw : Hardware} {rxBufSize first : ℕ} {s : Sys}

namespace Sys

/-! ## Positions -/

theorem StandsAt.names {p : ℕ} (stands : s.StandsAt hw p) :
    s.call.rx.StandsAt hw.stamp (p + exanicRxNumChunks) :=
  ⟨by rw [Nat.add_mod_right, stands.slot], by rw [hw.stamp_lap, stands.lap]⟩

theorem StandsAt.of_names {p : ℕ}
    (names : s.call.rx.StandsAt hw.stamp (p + exanicRxNumChunks)) (reached : p ≤ s.written)
    (bounded : s.written ≤ p + 255 * exanicRxNumChunks) : s.StandsAt hw p where
  slot := by rw [names.1, Nat.add_mod_right]
  lap := by rw [names.2, hw.stamp_lap]
  reached
  bounded

/-- The handle names one position only. -/
theorem StandsAt.unique {p q : ℕ} (stands : s.StandsAt hw p) (also : s.StandsAt hw q) :
    p = q := by
  have := position_unique (w := s.written + exanicRxNumChunks) hw.recycled_stamp
    exanicRxNumChunks_pos (by omega) (stands.names.1.symm.trans also.names.1)
    (stands.names.2.symm.trans also.names.2)
    (Nat.add_le_add_right stands.reached _) (by have := stands.bounded; omega)
    (Nat.add_le_add_right also.reached _) (by have := also.bounded; omega)
  omega

/-- What a load of the next chunk's word can find. -/
theorem StandsAt.look {p : ℕ} (ring : s.ring = hw.ringAfter s.written)
    (stands : s.StandsAt hw p) :
    let found := (s.ring s.call.rx.nextChunk).info
    (s.written = p ∧ found.generation = s.call.rx.generation - 1) ∨
      (p < s.written ∧ s.written ≤ p + exanicRxNumChunks ∧ found = (hw.chunk p).info ∧
        found.generation = s.call.rx.generation) ∨
      (p + exanicRxNumChunks < s.written ∧ found.generation ≠ s.call.rx.generation ∧
        found.generation ≠ s.call.rx.generation - 1) := by
  have reflects := hw.reflects_ringAfter s.written
  rw [← ring] at reflects
  have stamped : Stamped exanicRxNumChunks (fun c : RxChunk => c.info.generation) hw.stamp
      hw.content := hw.content_generation
  have bounded := stands.bounded
  have reached := stands.reached
  have current := read_current_iff (p := p + exanicRxNumChunks) hw.recycled_stamp reflects
    stamped exanicRxNumChunks_pos (by omega) (by omega) (by omega) (by omega)
  have pending := read_pending_iff (p := p + exanicRxNumChunks) hw.recycled_stamp reflects
    stamped exanicRxNumChunks_pos (by omega) (by omega) (by omega) (by omega)
  rw [Nat.add_mod_right, ← stands.slot, hw.stamp_lap, ← stands.lap] at current
  rw [Nat.add_mod_right, ← stands.slot, hw.stamp_lap_before, ← stands.lap] at pending
  rcases Nat.lt_trichotomy p s.written with written | caught | beyond
  · rcases Nat.lt_or_ge (p + exanicRxNumChunks) s.written with passed | recent
    · refine Or.inr (Or.inr ⟨passed, fun same => ?_, fun same => ?_⟩)
      · have := current.1 same
        omega
      · have := pending.1 same
        omega
    · refine Or.inr (Or.inl ⟨written, recent, ?_, current.2 ⟨by omega, by omega⟩⟩)
      have := reflects.current (p := p + exanicRxNumChunks) (by omega) (by omega)
      rw [Nat.add_mod_right, ← stands.slot, hw.content_add] at this
      rw [this]
  · exact Or.inl ⟨caught.symm, pending.2 (by omega)⟩
  · omega

/-- While no chunk was written into its slot, the accepted chunk is the one
copied. -/
theorem payload_of_not_overwritten {p : ℕ} (ring : s.ring = hw.ringAfter s.written)
    (loaded : p < s.loadedAt) (current : s.loadedAt ≤ p + exanicRxNumChunks)
    (past : s.loadedAt ≤ s.written)
    (kept : s.overwritten (p % exanicRxNumChunks) = false) :
    s.ring (p % exanicRxNumChunks) = hw.chunk p := by
  have recent : s.written ≤ p + exanicRxNumChunks := by
    apply Nat.le_of_not_lt
    intro passed
    have := of_decide_eq_false kept
    exact this ⟨p + exanicRxNumChunks, passed, current, Nat.add_mod_right _ _⟩
  have reflects := hw.reflects_ringAfter s.written
  rw [← ring] at reflects
  have := reflects.current (p := p + exanicRxNumChunks) (by omega) (by omega)
  rwa [Nat.add_mod_right, hw.content_add] at this

end Sys

/-! ## The card's steps -/

theorem Sys.StandsAt.write {p : ℕ} (stands : s.StandsAt hw p) (room : s.CanWrite hw) :
    (s.write hw).StandsAt hw p := by
  obtain ⟨q, also, behind⟩ := room
  obtain rfl := stands.unique also
  exact ⟨stands.slot, stands.lap, Nat.le_succ_of_le stands.reached, behind⟩

/-- The card writes `n` chunks in a row. -/
def Sys.writes (hw : Hardware) : ℕ → Sys → Sys
  | 0, s => s
  | n + 1, s => (writes hw n s).write hw

theorem Sys.writes_frame (hw : Hardware) (n : ℕ) (s : Sys) :
    (s.writes hw n).written = s.written + n ∧ (s.writes hw n).call = s.call ∧
      (s.writes hw n).torn = s.torn ∧ (s.writes hw n).log = s.log := by
  induction n with
  | zero => exact ⟨rfl, rfl, rfl, rfl⟩
  | succ n ih =>
      obtain ⟨written, call, torn, log⟩ := ih
      exact ⟨congrArg (· + 1) written, call, torn, log⟩

theorem Sys.writes_ring (ring : s.ring = hw.ringAfter s.written) (n : ℕ) :
    (s.writes hw n).ring = hw.ringAfter (s.writes hw n).written := by
  induction n with
  | zero => exact ring
  | succ n ih =>
      show hw.writeChunk (s.writes hw n).ring (s.writes hw n).written =
        hw.ringAfter ((s.writes hw n).written + 1)
      rw [ih]
      rfl

/-- The card may write as long as it stays within 255 laps of the reader. -/
theorem Sys.StandsAt.writes {R : Sys → Sys → Prop} {p : ℕ} (stands : s.StandsAt hw p)
    (write : ∀ {s : Sys}, s.CanWrite hw → R s (s.write hw)) (n : ℕ)
    (room : s.written + n ≤ p + 255 * exanicRxNumChunks) :
    Relation.ReflTransGen R s (s.writes hw n) := by
  induction n with
  | zero => exact .refl
  | succ n ih =>
      obtain ⟨written, call, -, -⟩ := s.writes_frame hw n
      have reached := stands.reached
      refine (ih (by omega)).tail (write ⟨p, ?_, by omega⟩)
      exact ⟨call ▸ stands.slot, call ▸ stands.lap, by omega, by omega⟩

theorem Place.write {c : ℕ} (place : Place hw rxBufSize c s) (room : s.CanWrite hw) :
    Place hw rxBufSize c (s.write hw) := by
  have same : (s.write hw).call.pc = s.call.pc := rfl
  unfold Place at place ⊢
  rw [same]
  cases pc : s.call.pc with
  | entry =>
      rw [pc] at place
      exact ⟨place.1, place.2.write room⟩
  | copy chunk info size =>
      rw [pc] at place
      obtain ⟨j, copying⟩ := place
      exact ⟨j, { copying with
        past := Nat.le_succ_of_le copying.past
        stands := copying.stands.write room }⟩
  | spin size =>
      rw [pc] at place
      obtain ⟨j, inside, sized, stands, filled⟩ := place
      exact ⟨j, inside, sized, stands.write room, filled⟩
  | lapped =>
      rw [pc] at place
      obtain ⟨p, after, passed, stands⟩ := place
      exact ⟨p, after, Nat.lt_succ_of_lt passed, stands.write room⟩
  | done ret status =>
      rw [pc] at place
      exact place

theorem Inv.write (inv : Inv hw rxBufSize first s) (room : s.CanWrite hw) :
    Inv hw rxBufSize first (s.write hw) := by
  obtain ⟨c, account, place⟩ := inv.place
  refine ⟨?_, c, account, place.write room⟩
  show hw.writeChunk s.ring s.written = hw.ringAfter (s.written + 1)
  rw [inv.ring]
  rfl

/-! ## The reader's steps -/

theorem Sys.read_goOn {call : Call} (steps : s.call.step s.ring rxBufSize = call)
    (running : ∀ ret status, call.pc ≠ .done ret status) :
    s.read rxBufSize = s.goOn rxBufSize call := by
  unfold Sys.read
  rw [steps]
  split
  · rename_i returns
    exact absurd returns (running _ _)
  · rfl

theorem Sys.read_finish {call : Call} (steps : s.call.step s.ring rxBufSize = call)
    {ret : Int} {status : ℕ} (returns : call.pc = .done ret status) :
    s.read rxBufSize = s.finish rxBufSize call ret status := by
  unfold Sys.read
  rw [steps, returns]

/-- Accepting the word of chunk `j` of the frame leads to its copy. -/
theorem Place.accept {c j : ℕ} (stands : s.StandsAt hw (hw.start c + j))
    (inside : j ≤ (hw.frame c).body.length) (filled : Filled hw rxBufSize c j s)
    (loads : s.nextLoadedAt = s.written) (whole : s.tears rxBufSize = false)
    (written : hw.start c + j < s.written)
    (recent : s.written ≤ hw.start c + j + exanicRxNumChunks) :
    Place hw rxBufSize c (s.goOn rxBufSize (s.call.accept (hw.chunk (hw.start c + j)).info
      (exanicRxChunkPayloadSize * j))) := by
  have next : s.call.rx.advance.StandsAt hw.stamp (hw.start c + j + 1 + exanicRxNumChunks) := by
    rw [Nat.add_right_comm]
    exact stands.names.advance hw.stamp_succ
  refine ⟨j, ?_⟩
  exact
    { inside, slot := stands.slot, word := rfl, size_eq := rfl
      loaded := by show _ < s.nextLoadedAt; omega
      current := by show s.nextLoadedAt ≤ _; omega
      past := by show s.nextLoadedAt ≤ s.written; omega
      stands := Sys.StandsAt.of_names next (by show _ ≤ s.written; omega)
        (by show s.written ≤ _; omega)
      filled := fun fits untorn => filled fits (by
        have : (s.torn || s.tears rxBufSize) = false := untorn
        simpa [whole] using this) }

/-- The call starts: it finds nothing, the first chunk of its frame, or that it
was lapped. -/
theorem Inv.read_entry (inv : Inv hw rxBufSize first s) (pc : s.call.pc = .entry) :
    Inv hw rxBufSize first (s.read rxBufSize) := by
  obtain ⟨c, account, place⟩ := inv.place
  simp only [Place, pc] at place
  obtain ⟨untorn, stands⟩ := place
  have whole : s.tears rxBufSize = false := by simp [Sys.tears, pc]
  have loads : s.nextLoadedAt = s.written := by simp [Sys.nextLoadedAt, pc]
  rcases stands.look inv.ring with
    ⟨caught, lap⟩ | ⟨written, recent, found, lap⟩ | ⟨passed, ne, ne_pred⟩
  · rw [Sys.read_finish (Call.step_entry_idle pc lap) rfl]
    exact ⟨inv.ring, c, .call account (.idle rfl rfl caught),
      rfl, stands.slot, stands.lap, stands.reached, stands.bounded⟩
  · rw [Sys.read_goOn (Call.step_entry_accept pc lap) (fun _ _ => by simp [Call.accept]), found]
    have empty : Filled hw rxBufSize c 0 s := fun _ _ => by simp
    exact ⟨inv.ring, c, account,
      Place.accept (j := 0) stands (Nat.zero_le _) empty loads whole written recent⟩
  · rw [Sys.read_goOn (Call.step_entry_lapped pc ne ne_pred) (fun _ _ => by simp)]
    exact ⟨inv.ring, c, account, hw.start c, le_rfl, passed,
      stands.slot, stands.lap, stands.reached, stands.bounded⟩

/-- The call waits for one more chunk of its frame. -/
theorem Inv.read_spin (inv : Inv hw rxBufSize first s) {size : ℕ} (pc : s.call.pc = .spin size) :
    Inv hw rxBufSize first (s.read rxBufSize) := by
  obtain ⟨c, account, place⟩ := inv.place
  simp only [Place, pc] at place
  obtain ⟨j, inside, rfl, stands, filled⟩ := place
  have whole : s.tears rxBufSize = false := by simp [Sys.tears, pc]
  have loads : s.nextLoadedAt = s.written := by simp [Sys.nextLoadedAt, pc]
  rcases stands.look inv.ring with
    ⟨caught, lap⟩ | ⟨written, recent, found, lap⟩ | ⟨passed, ne, ne_pred⟩
  · rw [Sys.read_goOn (Call.step_spin_wait pc lap) (fun _ _ => by simp [pc])]
    refine ⟨inv.ring, c, account, ?_⟩
    simp only [Place, Sys.goOn, pc]
    refine ⟨j, inside, rfl, ⟨stands.slot, stands.lap, stands.reached, stands.bounded⟩, ?_⟩
    intro fits untorn
    exact filled fits (by simpa [whole] using untorn)
  · rw [Sys.read_goOn (Call.step_spin_accept pc lap) (fun _ _ => by simp [Call.accept]), found]
    exact ⟨inv.ring, c, account,
      Place.accept stands inside filled loads whole written recent⟩
  · rw [Sys.read_goOn (Call.step_spin_lapped pc ne ne_pred) (fun _ _ => by simp)]
    exact ⟨inv.ring, c, account, hw.start c + j, Nat.le_add_right _ _, passed,
      stands.slot, stands.lap, stands.reached, stands.bounded⟩

/-- The catch-up leaves the reader at the frame the card is writing. -/
theorem Inv.read_lapped (inv : Inv hw rxBufSize first s) (pc : s.call.pc = .lapped) :
    Inv hw rxBufSize first (s.read rxBufSize) := by
  obtain ⟨c, account, place⟩ := inv.place
  simp only [Place, pc] at place
  obtain ⟨p, after, passed, stands⟩ := place
  obtain ⟨next, started, inside⟩ := hw.exists_frame s.written
  have reflects := hw.reflects_ringAfter s.written
  rw [← inv.ring] at reflects
  have positive := exanicRxNumChunks_pos
  have names := exanicRxCatchup_position hw.recycled_stamp hw.stamp_succ reflects
    hw.content_generation (by omega) (hw.lastEofEntry started inside) s.call.rx
  have place : hw.start next + exanicRxNumChunks - 1 + 1 = hw.start next + exanicRxNumChunks := by
    omega
  rw [place] at names
  rw [Sys.read_finish (Call.step_lapped pc) rfl]
  refine ⟨inv.ring, next,
    .call account (.overrun rfl rfl (by show _ < s.written; omega) ⟨started, inside⟩),
    rfl, Sys.StandsAt.of_names names started ?_⟩
  show s.written ≤ _
  have := hw.start_succ_le next
  omega

/-! ### The copy of a chunk -/

theorem Copying.tears_eq {c j chunk size : ℕ} {info : RxChunkInfo}
    (copying : Copying hw rxBufSize c j chunk info size s) (pc : s.call.pc = .copy chunk info size)
    (fits : size + info.size ≤ rxBufSize) :
    s.tears rxBufSize = s.overwritten ((hw.start c + j) % exanicRxNumChunks) := by
  simp [Sys.tears, pc, copying.slot, fits]

/-- A payload that is not torn is the chunk's own. -/
theorem Copying.block {c j chunk size : ℕ} {info : RxChunkInfo}
    (copying : Copying hw rxBufSize c j chunk info size s) (ring : s.ring = hw.ringAfter s.written)
    (pc : s.call.pc = .copy chunk info size) (fits : size + info.size ≤ rxBufSize)
    (kept : s.tears rxBufSize = false) :
    payloadBytes (s.ring chunk).payload info.length =
      (hw.stream.entry (hw.start c + j)).bytes := by
  rw [copying.tears_eq pc fits] at kept
  rw [copying.slot, Sys.payload_of_not_overwritten ring copying.loaded copying.current copying.past
    kept, copying.word]
  rfl

/-- A full chunk of the frame is copied, if it fits, and the call waits for the
next one. -/
theorem Copying.more {c j chunk size : ℕ} {info : RxChunkInfo}
    (copying : Copying hw rxBufSize c j chunk info size s) (ring : s.ring = hw.ringAfter s.written)
    (pc : s.call.pc = .copy chunk info size) (inside : j < (hw.frame c).body.length) :
    Place hw rxBufSize c (s.read rxBufSize) ∧ (s.read rxBufSize).log = s.log := by
  have more : info.length = 0 := by
    rw [copying.word]
    exact hw.chunk_length_body c inside
  obtain rfl := copying.size_eq
  rw [Sys.read_goOn ((Call.step_copy pc).trans (Call.processChunk_more more)) (fun _ _ => by simp)]
  refine ⟨⟨j + 1, inside, by rw [Nat.mul_add, Nat.mul_one], ?_, fun fits untorn => ?_⟩, rfl⟩
  · have stands := copying.stands
    exact ⟨stands.slot, stands.lap, stands.reached, stands.bounded⟩
  · have fits : exanicRxChunkPayloadSize * j + exanicRxChunkPayloadSize ≤ rxBufSize := by
      rwa [Nat.mul_add, Nat.mul_one] at fits
    obtain ⟨untorn, kept⟩ : s.torn = false ∧ s.tears rxBufSize = false := by simpa [Sys.goOn] using untorn
    have room : exanicRxChunkPayloadSize * j + info.size ≤ rxBufSize := by
      rwa [RxChunkInfo.size, if_pos more]
    have full : (payloadBytes (s.ring chunk).payload info.length).length =
        exanicRxChunkPayloadSize := by
      simp [more, payloadBytes_full]
    show Memory.front (exanicRxChunkPayloadSize * (j + 1)) (if _ then _ else _) = _
    rw [if_pos fits, Nat.mul_add, Nat.mul_one, Memory.front_copy _ _ full,
      copying.filled (by omega) untorn, copying.block ring pc room kept, hw.entry_body c inside,
      List.take_add_one, List.getElem?_eq_getElem inside, List.flatMap_append]
    simp

/-- The last chunk of the frame ends the call: the frame is delivered if it fits
the buffer and reported as truncated if not. -/
theorem Copying.last {c chunk size : ℕ} {info : RxChunkInfo}
    (copying : Copying hw rxBufSize c (hw.frame c).body.length chunk info size s)
    (ring : s.ring = hw.ringAfter s.written) (pc : s.call.pc = .copy chunk info size)
    (account : Account DeliversUnlessTorn hw rxBufSize first s.log c) :
    Place hw rxBufSize (c + 1) (s.read rxBufSize) ∧
      Account DeliversUnlessTorn hw rxBufSize first (s.read rxBufSize).log (c + 1) := by
  have chunkEntry : info = ((hw.frame c).last.stamped
      (hw.generation (hw.start c + (hw.frame c).body.length))).info := by
    rw [copying.word, Hardware.chunk, hw.entry_last]
  have length : info.length = (hw.frame c).last.length := congrArg RxChunkInfo.length chunkEntry
  have last : info.length ≠ 0 := length ▸ (hw.frame c).last_ne_zero
  have total : size + info.length.toNat = (hw.frame c).payload.length := by
    rw [copying.size_eq, length, Frame.payload_length]
  have stands : s.StandsAt hw (hw.start (c + 1)) := by
    rw [hw.start_succ, Frame.chunks_length]
    exact copying.stands
  rcases Nat.lt_or_ge rxBufSize (size + info.length.toNat) with tooLong | fits
  · rw [Sys.read_finish ((Call.step_copy pc).trans (Call.processChunk_truncated last tooLong)) rfl]
    exact ⟨⟨rfl, stands.slot, stands.lap, stands.reached, stands.bounded⟩,
      .call account (.truncated rfl rfl (total ▸ tooLong))⟩
  · rw [Sys.read_finish ((Call.step_copy pc).trans (Call.processChunk_delivered last fits)) rfl]
    refine ⟨⟨rfl, stands.slot, stands.lap, stands.reached, stands.bounded⟩,
      .call account (.delivered (total ▸ fits) ⟨by rw [total], ?_, ?_, fun untorn => ?_⟩)⟩
    · rw [chunkEntry]
      rfl
    · exact congrArg RxChunkInfo.timestamp chunkEntry
    · obtain ⟨untorn, kept⟩ : s.torn = false ∧ s.tears rxBufSize = false := by simpa using untorn
      have room : size + info.size ≤ rxBufSize := by rwa [RxChunkInfo.size, if_neg last]
      have full : (payloadBytes (s.ring chunk).payload info.length).length = info.length.toNat :=
        payloadBytes_length last (length ▸ (hw.frame c).last_le)
      show Memory.front (Int.toNat (size + info.length.toNat : ℕ)) _ = _
      rw [Int.toNat_natCast, Memory.front_copy _ _ full, copying.block ring pc room kept,
        hw.entry_last, copying.size_eq, copying.filled (by have := copying.size_eq; omega) untorn,
        List.take_length, Frame.payload_eq]

/-- The accepted chunk is copied. -/
theorem Inv.read_copy (inv : Inv hw rxBufSize first s) {chunk size : ℕ} {info : RxChunkInfo}
    (pc : s.call.pc = .copy chunk info size) :
    Inv hw rxBufSize first (s.read rxBufSize) := by
  obtain ⟨c, account, place⟩ := inv.place
  simp only [Place, pc] at place
  obtain ⟨j, copying⟩ := place
  have ring : (s.read rxBufSize).ring = hw.ringAfter (s.read rxBufSize).written := by
    have unchanged : (s.read rxBufSize).ring = s.ring ∧ (s.read rxBufSize).written = s.written := by
      unfold Sys.read
      split <;> exact ⟨rfl, rfl⟩
    rw [unchanged.1, unchanged.2]
    exact inv.ring
  rcases Nat.lt_or_ge j (hw.frame c).body.length with inside | atLast
  · obtain ⟨place, log⟩ := copying.more inv.ring pc inside
    exact ⟨ring, c, log ▸ account, place⟩
  · obtain rfl := le_antisymm copying.inside atLast
    obtain ⟨place, account⟩ := copying.last inv.ring pc account
    exact ⟨ring, c + 1, account, place⟩

/-! ## Runs -/

theorem Inv.read (inv : Inv hw rxBufSize first s) :
    Inv hw rxBufSize first (s.read rxBufSize) := by
  cases pc : s.call.pc with
  | entry => exact inv.read_entry pc
  | copy chunk info size => exact inv.read_copy pc
  | spin size => exact inv.read_spin pc
  | lapped => exact inv.read_lapped pc
  | done ret status =>
      obtain ⟨c, -, place⟩ := inv.place
      simp only [Place, pc] at place

theorem Inv.step {t : Sys} (inv : Inv hw rxBufSize first s) (step : Step hw rxBufSize s t) :
    Inv hw rxBufSize first t := by
  cases step with
  | write room => exact inv.write room
  | read => exact inv.read

theorem Sys.Initial.inv (initial : s.Initial hw first) : Inv hw rxBufSize first s := by
  refine ⟨initial.ring, first, ?_, ?_⟩
  · rw [initial.log]
    exact .start
  · simp only [Place, initial.entry]
    exact ⟨initial.whole, initial.stands⟩

/-- **Every run keeps the invariant**, whatever the interleaving. -/
theorem inv_run {t : Sys} (initial : s.Initial hw first)
    (run : Relation.ReflTransGen (Step hw rxBufSize) s t) : Inv hw rxBufSize first t := by
  induction run with
  | refl => exact initial.inv
  | tail _ step ih => exact ih.step step

end ExanicCapture.Rx
