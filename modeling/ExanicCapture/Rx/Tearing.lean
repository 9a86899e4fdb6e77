/-
# Rx.Tearing -- a payload overwritten between the load and the copy

In `Step` the load of a chunk's word and the copy of its payload are two accesses,
and the card may lap the reader in between.  `exanic_receive_frame_ex` does not
look at the ring again after the copy, so such a call can return the size of one
frame and bytes of another (`torn_frame_accepted`); `exanic_receive_frame` of the
library checks the generation of its sentinel chunk at this point.

`soundRun_iff` says exactly which runs are sound: those in which the reader never comes
to a frame's last chunk when it has copied, or copies now, a chunk of the frame that was
overwritten since its load.  A chunk for which the buffer has no room is not copied, so
a frame that is reported as too long for it may well have been overwritten.
-/
import ExanicCapture.Rx.Delivery

namespace ExanicCapture.Rx

set_option autoImplicit false

open Theory

variable {hw : Hardware} {rxBufSize first : ℕ}

/-- What is asked of a call: the bytes it returns are those of one frame, and a
chunk overwritten between its load and its copy is reported as an overrun. -/
structure SoundCall (hw : Hardware) (r : Returned) : Prop where
  oneFrame : 0 ≤ r.ret → ∃ i, r.data = (hw.frame i).payload
  reported : r.torn = true → r.ret = -1 ∧ r.frameStatus = exanicRxFrameSwovfl

/-- The reader has come to the last chunk of a frame of which it has copied, or copies
now, a chunk that was overwritten since its load. -/
def Sys.CompletesTorn (rxBufSize : ℕ) (s : Sys) : Prop :=
  ∃ chunk info size, s.call.pc = .copy chunk info size ∧ info.length ≠ 0 ∧
    (s.torn || s.tears rxBufSize) = true

/-- A step that does not complete a torn frame. -/
inductive CleanStep (hw : Hardware) (rxBufSize : ℕ) : Sys → Sys → Prop where
  | write {s : Sys} (room : s.CanWrite hw) : CleanStep hw rxBufSize s (s.write hw)
  | read {s : Sys} (clean : ¬ s.CompletesTorn rxBufSize) : CleanStep hw rxBufSize s (s.read rxBufSize)

theorem CleanStep.step {s t : Sys} (step : CleanStep hw rxBufSize s t) : Step hw rxBufSize s t := by
  cases step with
  | write room => exact .write room
  | read => exact .read

/-- An access leaves the log alone or adds what the call returned. -/
theorem Sys.read_log (s : Sys) (rxBufSize : ℕ) :
    (s.read rxBufSize).log = s.log ∨
      ∃ r, (s.read rxBufSize).log = s.log ++ [r] ∧ r.torn = (s.torn || s.tears rxBufSize) ∧
        (s.call.step s.ring rxBufSize).pc = .done r.ret r.frameStatus := by
  unfold Sys.read
  split
  · rename_i returns
    exact Or.inr ⟨_, rfl, rfl, returns⟩
  · exact Or.inl rfl

theorem Step.log_subset {s t : Sys} (step : Step hw rxBufSize s t) : s.log ⊆ t.log := by
  cases step with
  | write => exact List.Subset.refl _
  | read =>
      rcases s.read_log rxBufSize with same | ⟨r, grown, -⟩
      · exact same ▸ List.Subset.refl _
      · exact grown ▸ List.subset_append_left _ _

/-- Completing a torn frame returns a call that is not sound. -/
theorem completesTorn_unsound (hw : Hardware) (rxBufSize : ℕ) {s : Sys} (torn : s.CompletesTorn rxBufSize) :
    ∃ r ∈ (s.read rxBufSize).log, ¬ SoundCall hw r := by
  obtain ⟨chunk, info, size, pc, last, torn⟩ := torn
  obtain ⟨ret, status, returns, notOverrun⟩ :=
    Call.completed_not_overrun s.ring rxBufSize pc last
  rw [Sys.read_finish rfl returns]
  exact ⟨_, List.mem_append_right _ (List.mem_singleton_self _),
    fun sound => notOverrun (sound.reported torn).2⟩

/-- A torn call that does not complete its frame ends in an overrun. -/
theorem Inv.torn_reported {s : Sys} (inv : Inv hw rxBufSize first s) (clean : ¬ s.CompletesTorn rxBufSize)
    {ret : Int} {status : ℕ} (returns : (s.call.step s.ring rxBufSize).pc = .done ret status)
    (torn : (s.torn || s.tears rxBufSize) = true) : ret = -1 ∧ status = exanicRxFrameSwovfl := by
  obtain ⟨c, -, place⟩ := inv.place
  cases pc : s.call.pc with
  | entry =>
      simp only [Place, pc] at place
      simp [place.1, Sys.tears, pc] at torn
  | copy chunk info size =>
      by_cases last : info.length = 0
      · rw [Call.step_copy pc, Call.processChunk_more last] at returns
        exact absurd returns (by simp)
      · exact absurd ⟨chunk, info, size, pc, last, torn⟩ clean
  | spin size =>
      unfold Call.step at returns
      simp only [pc] at returns
      split at returns
      · exact absurd (pc.symm.trans returns) (by simp)
      · split at returns <;> exact absurd returns (by simp [Call.accept])
  | lapped =>
      rw [Call.step_lapped pc] at returns
      cases returns
      exact ⟨rfl, rfl⟩
  | done =>
      simp only [Place, pc] at place

theorem CleanStep.reported {s t : Sys} (inv : Inv hw rxBufSize first s)
    (step : CleanStep hw rxBufSize s t)
    (reported : ∀ r ∈ s.log, r.torn = true → r.ret = -1 ∧ r.frameStatus = exanicRxFrameSwovfl) :
    ∀ r ∈ t.log, r.torn = true → r.ret = -1 ∧ r.frameStatus = exanicRxFrameSwovfl := by
  cases step with
  | write => exact reported
  | read clean =>
      rcases s.read_log rxBufSize with same | ⟨r, grown, torn, returns⟩
      · exact same ▸ reported
      · intro r' member isTorn
        rw [grown] at member
        rcases List.mem_append.1 member with old | new
        · exact reported r' old isTorn
        · obtain rfl := List.mem_singleton.1 new
          exact inv.torn_reported clean returns (torn ▸ isTorn)

/-- In an account a call that is not torn returns one frame or nothing. -/
theorem Account.oneFrame {log : List Returned} {last : ℕ}
    (account : Account DeliversUnlessTorn hw rxBufSize first log last) :
    ∀ r ∈ log, 0 ≤ r.ret → r.torn = false → ∃ i, r.data = (hw.frame i).payload := by
  induction account with
  | start => simp
  | @call log c next r before moves ih =>
      intro r' member delivered whole
      rcases List.mem_append.1 member with old | new
      · exact ih r' old delivered whole
      · obtain rfl := List.mem_singleton.1 new
        cases moves with
        | delivered fits delivers => exact ⟨c, delivers.data whole⟩
        | idle ret | truncated ret | overrun ret => omega

theorem cleanRun_sound {s t : Sys} (initial : s.Initial hw first)
    (run : Relation.ReflTransGen (CleanStep hw rxBufSize) s t) : ∀ r ∈ t.log, SoundCall hw r := by
  have steps : Relation.ReflTransGen (Step hw rxBufSize) s t :=
    Relation.ReflTransGen.mono (fun _ _ => CleanStep.step) _ _ run
  have reported : ∀ r ∈ t.log, r.torn = true → r.ret = -1 ∧ r.frameStatus = exanicRxFrameSwovfl := by
    clear steps
    induction run with
    | refl => simp [initial.log]
    | tail before step ih =>
        have steps := Relation.ReflTransGen.mono (fun _ _ => CleanStep.step) _ _ before
        exact step.reported (inv_run initial steps) ih
  obtain ⟨last, account, -⟩ := (inv_run initial steps).place
  intro r member
  refine ⟨fun delivered => ?_, reported r member⟩
  refine account.oneFrame r member delivered ?_
  by_contra torn
  have := (reported r member (by simpa using torn)).1
  omega

/-- **Which runs are sound.**  All calls of a run are sound exactly when the run
never completes a torn frame. -/
theorem soundRun_iff {s t : Sys} (initial : s.Initial hw first)
    (run : Relation.ReflTransGen (Step hw rxBufSize) s t) :
    (∀ r ∈ t.log, SoundCall hw r) ↔ Relation.ReflTransGen (CleanStep hw rxBufSize) s t := by
  refine ⟨fun sound => ?_, cleanRun_sound initial⟩
  induction run with
  | refl => exact .refl
  | @tail u v before step ih =>
      have clean := ih fun r member => sound r (step.log_subset member)
      cases step with
      | write room => exact clean.tail (.write room)
      | read =>
          refine clean.tail (.read ?_)
          intro torn
          obtain ⟨r, member, unsound⟩ := completesTorn_unsound hw rxBufSize torn
          exact unsound (sound r member)

/-! ## A lap between load and copy -/

namespace Poles

/-- The card has written one chunk and the reader has loaded its word. -/
def loaded : Sys := (idle.write card).read 16384

/-- Since then the card has gone once round the ring. -/
def lapped : Sys := loaded.writes card exanicRxNumChunks

/-- The load does not look at the buffer. -/
theorem loaded_eq (rxBufSize : ℕ) : (idle.write card).read rxBufSize = loaded := rfl

theorem loaded_pc : loaded.call.pc = .copy 0 (card.chunk 0).info 0 := by decide

theorem loaded_stands : loaded.StandsAt card 1 :=
  ⟨by decide, by decide, by decide, by decide⟩

theorem lapped_call : lapped.call = loaded.call :=
  (loaded.writes_frame card exanicRxNumChunks).2.1

theorem lapped_clean (rxBufSize : ℕ) :
    Relation.ReflTransGen (CleanStep card rxBufSize) idle lapped := by
  have written : Relation.ReflTransGen (CleanStep card rxBufSize) idle (idle.write card) :=
    .single (.write ⟨0, idle_stands, by decide⟩)
  have load : CleanStep card rxBufSize (idle.write card) loaded := by
    rw [← loaded_eq rxBufSize]
    refine .read ?_
    rintro ⟨_, _, _, copying, -⟩
    cases copying
  exact (written.tail load).trans (loaded_stands.writes .write _ (by decide))

theorem lapped_run (rxBufSize : ℕ) : Relation.ReflTransGen (Step card rxBufSize) idle lapped :=
  Relation.ReflTransGen.mono (fun _ _ => CleanStep.step) _ _ (lapped_clean rxBufSize)

theorem lapped_ring : lapped.ring 0 = card.chunk exanicRxNumChunks := by
  have inv := inv_run idle_initial (lapped_run 16384)
  have written : lapped.written = 1 + exanicRxNumChunks :=
    (loaded.writes_frame card exanicRxNumChunks).1
  have positive := exanicRxNumChunks_pos
  have reflects := card.reflects_ringAfter lapped.written
  rw [← inv.ring] at reflects
  have last : exanicRxNumChunks + exanicRxNumChunks < lapped.written + exanicRxNumChunks := by
    omega
  have there := reflects _ last (by omega)
  rwa [Nat.add_mod_right, Nat.mod_self, card.content_add] at there

/-- The call that has loaded the word of the first frame returns its two bytes
from whatever chunk is in slot 0. -/
theorem read_first {s : Sys} (pc : s.call.pc = .copy 0 (card.chunk 0).info 0) {byte : UInt8}
    (slot : (s.ring 0).payload = Vector.replicate _ byte) :
    ∃ r ∈ (s.read 16384).log, r.ret = 2 ∧ r.data = [byte, byte] := by
  have last : (card.chunk 0).info.length ≠ 0 := by decide
  have fits : 0 + (card.chunk 0).info.length.toNat ≤ 16384 := by decide
  rw [Sys.read_finish ((Call.step_copy pc).trans (Call.processChunk_delivered last fits)) rfl]
  refine ⟨_, List.mem_append_right _ (List.mem_singleton_self _), rfl, ?_⟩
  rw [slot]
  rfl

/-- The call returns the size of the first frame and bytes of a later one. -/
theorem lapped_read : ∃ r ∈ (lapped.read 16384).log, r.ret = 2 ∧ r.data = [2, 2] := by
  refine read_first ((congrArg Call.pc lapped_call).trans loaded_pc) ?_
  rw [lapped_ring]
  exact card_chunk_later exanicRxNumChunks_pos.ne'

/-- A call that returns bytes of two frames is not sound. -/
theorem lapped_unsound : ¬ ∀ r ∈ (lapped.read 16384).log, SoundCall card r := by
  intro sound
  obtain ⟨r, member, ret, data⟩ := lapped_read
  obtain ⟨i, frame⟩ := (sound r member).oneFrame (by omega)
  rw [data] at frame
  rcases card_payload i with first | later
  · rw [first] at frame
    exact absurd frame (by decide)
  · rw [later] at frame
    exact absurd frame (by decide)

/-- With room for a single byte the first frame is too long, and nothing is copied. -/
theorem lapped_refused : ¬ lapped.CompletesTorn 1 := by
  have whole : lapped.torn = false := (loaded.writes_frame card exanicRxNumChunks).2.2.1
  have kept : lapped.tears 1 = false := by
    unfold Sys.tears
    rw [lapped_call, loaded_pc]
    exact Bool.and_eq_false_iff.2 (Or.inl (by decide))
  rintro ⟨_, _, _, -, -, torn⟩
  rw [whole, kept] at torn
  cases torn

end Poles

/-- One lap, and two buffers: the frame that is copied makes the run unsound, the frame
that is too long does not. -/
theorem soundRun_iff_lapped :
    ¬ Relation.ReflTransGen (CleanStep Poles.card 16384) Poles.idle (Poles.lapped.read 16384) ∧
      ∀ r ∈ (Poles.lapped.read 1).log, SoundCall Poles.card r :=
  ⟨fun clean => Poles.lapped_unsound
      ((soundRun_iff Poles.idle_initial ((Poles.lapped_run 16384).tail .read)).2 clean),
    (soundRun_iff Poles.idle_initial ((Poles.lapped_run 1).tail .read)).2
      ((Poles.lapped_clean 1).tail (.read Poles.lapped_refused))⟩

/-- A run that is not sound: the card laps the reader between load and copy, and
the call returns two bytes that are no frame. -/
theorem torn_frame_accepted :
    ¬ ∀ t, Relation.ReflTransGen (Step Poles.card 16384) Poles.idle t →
      ∀ r ∈ t.log, SoundCall Poles.card r := by
  exact fun sound => Poles.lapped_unsound (sound _ ((Poles.lapped_run 16384).tail .read))

end ExanicCapture.Rx
