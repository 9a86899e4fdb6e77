/-
# Rx.Library -- `exanic_receive_frame` of the library, and the copy in `main.c`

The library's receiver, one ring access at a time like `exanic_receive_frame_ex` in
`Rx.ReceiveFrame`.  It returns one number: the length, 0 for no new frame, or a
negated code.  After the last payload it looks at the sentinel chunk (`check`), and
scans the ring if that chunk was overwritten.

`Sim` relates the two calls, both fed with the same ring at the same access.  They
agree access by access until the copy has delivered a frame; the library then has
its sentinel still to look at, and answers one access later.  `receiveFrame_agrees`
spells out the translation of the results (`Outcome.asLibrary`).
-/
import ExanicCapture.Rx.ReceiveFrame

namespace ExanicCapture.Rx

set_option autoImplicit false

open Theory

/-! ## The library's receiver -/

/-- Where a call of the library stands. -/
inductive LibPc where
  | entry
  | copy (chunk : ℕ) (info : RxChunkInfo) (size : ℕ)
  | spin (size : ℕ)
  | check (sentinelChunk : ℕ) (sentinelChunkGeneration : UInt8) (info : RxChunkInfo) (size : ℕ)
  | lapped
  | done (ret : Int)
deriving DecidableEq

/-- A call of the library in progress. -/
structure LibCall where
  rx : ExanicRx
  rxBuf : ℕ → UInt8
  timestamp : UInt32
  pc : LibPc

namespace LibCall

def accept (l : LibCall) (info : RxChunkInfo) (size : ℕ) : LibCall :=
  { l with rx := l.rx.advance, pc := .copy l.rx.nextChunk info size }

/-- Process the chunk whose word was accepted. -/
def processChunk (ring : ℕ → RxChunk) (rxBufSize : ℕ) (l : LibCall) (chunk : ℕ)
    (info : RxChunkInfo) (size : ℕ) : LibCall :=
  let payload := (ring chunk).payload
  if info.length ≠ 0 then
    -- last chunk
    if size + info.length.toNat > rxBufSize then
      { l with pc := .done (-exanicRxFrameTruncated) }
    else
      { l with
        rxBuf := Memory.copy l.rxBuf size (payload.toList.take info.length.toNat)
        -- move the sentinel chunk forward
        rx :=
          { l.rx with
            sentinelChunk := chunk, sentinelChunkGeneration := info.generation.toUInt32 }
        pc := .check l.rx.sentinelChunk l.rx.sentinelChunkGeneration.toUInt8 info size }
  else
    -- more chunks to come
    { l with
      rxBuf :=
        if size + exanicRxChunkPayloadSize ≤ rxBufSize then
          Memory.copy l.rxBuf size payload.toList
        else l.rxBuf
      pc := .spin (size + exanicRxChunkPayloadSize) }

/-- One access of `exanic_receive_frame` to the ring. -/
def step (ring : ℕ → RxChunk) (rxBufSize : ℕ) (l : LibCall) : LibCall :=
  match l.pc with
  | .entry =>
      let info := (ring l.rx.nextChunk).info
      if info.generation = l.rx.generation then l.accept info 0
      else if info.generation = l.rx.generation - 1 then
        -- no new packet
        { l with pc := .done 0 }
      else { l with pc := .lapped }
  | .copy chunk info size => l.processChunk ring rxBufSize chunk info size
  | .spin size =>
      let info := (ring l.rx.nextChunk).info
      if info.generation = l.rx.generation - 1 then l
      else if info.generation ≠ l.rx.generation then { l with pc := .lapped }
      else l.accept info size
  | .check sentinelChunk sentinelChunkGeneration info size =>
      if (ring sentinelChunk).info.generation ≠ sentinelChunkGeneration then
        { l with pc := .lapped }
      else
        { l with
          timestamp := info.timestamp
          pc := .done
            (if info.frameStatus &&& exanicRxFrameErrorMask ≠ 0 then
              -(info.frameStatus &&& exanicRxFrameErrorMask).toNat
            else (size + info.length.toNat : ℕ)) }
  | .lapped =>
      { l with
        rx := exanicRxCatchup (fun i => (ring i).info) l.rx
        pc := .done (-exanicRxFrameSwovfl) }
  | .done _ => l

/-- The call after `k` accesses, where access `i` finds the ring as `rings i`. -/
def run (rings : ℕ → ℕ → RxChunk) (rxBufSize : ℕ) (l : LibCall) (k : ℕ) : LibCall :=
  Lockstep.run (fun ring l => l.step ring rxBufSize) rings l k

end LibCall

/-! ## What a call leaves behind -/

/-- The results of `exanic_receive_frame_ex`. -/
structure Outcome where
  ret : Int
  frameStatus : ℕ
  nextChunk : ℕ
  generation : UInt8
  rxBuf : ℕ → UInt8
  timestamp : UInt32

/-- The results of `exanic_receive_frame`. -/
structure LibOutcome where
  ret : Int
  nextChunk : ℕ
  generation : UInt8
  rxBuf : ℕ → UInt8
  timestamp : UInt32

def Call.outcome (c : Call) : Option Outcome :=
  match c.pc with
  | .done ret frameStatus =>
      some
        { ret, frameStatus, nextChunk := c.rx.nextChunk, generation := c.rx.generation
          rxBuf := c.rxBuf, timestamp := c.timestamp }
  | _ => none

def LibCall.outcome (l : LibCall) : Option LibOutcome :=
  match l.pc with
  | .done ret =>
      some
        { ret, nextChunk := l.rx.nextChunk, generation := l.rx.generation
          rxBuf := l.rxBuf, timestamp := l.timestamp }
  | _ => none

/-- The same results in the library's convention: a frame without error is its
length, everything else a negated code. -/
def Outcome.asLibrary (o : Outcome) : LibOutcome :=
  { ret := if 0 < o.ret ∧ o.frameStatus = 0 then o.ret else -o.frameStatus
    nextChunk := o.nextChunk, generation := o.generation
    rxBuf := o.rxBuf, timestamp := o.timestamp }

/-- `exanic_receive_frame_ex` returns these results. -/
def Call.Returns (rings : ℕ → ℕ → RxChunk) (rxBufSize : ℕ) (c : Call) (o : Outcome) : Prop :=
  Lockstep.Returns (fun ring c => c.step ring rxBufSize) Call.outcome rings c o

/-- `exanic_receive_frame` returns these results. -/
def LibCall.Returns (rings : ℕ → ℕ → RxChunk) (rxBufSize : ℕ) (l : LibCall) (o : LibOutcome) :
    Prop :=
  Lockstep.Returns (fun ring l => l.step ring rxBufSize) LibCall.outcome rings l o

/-! ## The simulation -/

/-- The two calls stand at the same place with the same buffer. -/
structure SameReader (c : Call) (l : LibCall) : Prop where
  slot : c.rx.nextChunk = l.rx.nextChunk
  lap : c.rx.generation = l.rx.generation
  buffer : c.rxBuf = l.rxBuf

/-- How the places of the two calls correspond. -/
inductive Abreast (c : Call) (l : LibCall) : Prop where
  | entry (ex : c.pc = .entry) (lib : l.pc = .entry) (time : c.timestamp = l.timestamp)
  | copy {chunk : ℕ} {info : RxChunkInfo} {size : ℕ} (ex : c.pc = .copy chunk info size)
      (lib : l.pc = .copy chunk info size) (time : c.timestamp = l.timestamp)
  | spin {size : ℕ} (ex : c.pc = .spin size) (lib : l.pc = .spin size)
      (time : c.timestamp = l.timestamp)
  | lapped (ex : c.pc = .lapped) (lib : l.pc = .lapped) (time : c.timestamp = l.timestamp)
  | checking {chunk : ℕ} {generation : UInt8} {info : RxChunkInfo} {size : ℕ}
      (last : info.length ≠ 0)
      (ex : c.pc = .done (size + info.length.toNat : ℕ)
        (info.frameStatus &&& exanicRxFrameErrorMask).toNat)
      (lib : l.pc = .check chunk generation info size) (time : c.timestamp = info.timestamp)
  | done {ret : Int} {frameStatus : ℕ} (ex : c.pc = .done ret frameStatus)
      (lib : l.pc = .done (if 0 < ret ∧ frameStatus = 0 then ret else -frameStatus))
      (time : c.timestamp = l.timestamp)

/-- The calls correspond. -/
structure Sim (c : Call) (l : LibCall) : Prop where
  reader : SameReader c l
  abreast : Abreast c l

theorem advance_congr {rx rx' : ExanicRx} (slot : rx.nextChunk = rx'.nextChunk)
    (lap : rx.generation = rx'.generation) :
    rx.advance.nextChunk = rx'.advance.nextChunk ∧
      rx.advance.generation = rx'.advance.generation := by
  unfold ExanicRx.advance
  rw [slot]
  split
  · exact ⟨rfl, by show rx.generation + 1 = rx'.generation + 1; rw [lap]⟩
  · exact ⟨rfl, lap⟩

/-- The scan forgets where the reader stood. -/
theorem catchup_congr (read : ℕ → RxChunkInfo) (rx rx' : ExanicRx) :
    (exanicRxCatchup read rx).nextChunk = (exanicRxCatchup read rx').nextChunk ∧
      (exanicRxCatchup read rx).generation = (exanicRxCatchup read rx').generation := by
  unfold exanicRxCatchup
  apply advance_congr
  · split <;> rfl
  · split <;> rfl

section Steps

variable {ring : ℕ → RxChunk} {rxBufSize : ℕ} {c : Call} {l : LibCall}

theorem Sim.accept (reader : SameReader c l) (time : c.timestamp = l.timestamp)
    (info : RxChunkInfo) (size : ℕ) : Sim (c.accept info size) (l.accept info size) := by
  obtain ⟨slot, lap⟩ := advance_congr reader.slot reader.lap
  have lib : (l.accept info size).pc = .copy c.rx.nextChunk info size := by
    show LibPc.copy l.rx.nextChunk info size = LibPc.copy c.rx.nextChunk info size
    rw [reader.slot]
  exact ⟨⟨slot, lap, reader.buffer⟩, .copy rfl lib time⟩

theorem Sim.step_entry (reader : SameReader c l) (time : c.timestamp = l.timestamp)
    (ex : c.pc = .entry) (lib : l.pc = .entry) :
    Sim (c.step ring rxBufSize) (l.step ring rxBufSize) := by
  simp only [Call.step, LibCall.step, ex, lib, reader.slot, reader.lap]
  split
  · exact Sim.accept reader time _ _
  · split
    · exact ⟨⟨reader.slot, reader.lap, reader.buffer⟩, .done rfl (by simp [exanicRxFrameOk]) time⟩
    · exact ⟨⟨reader.slot, reader.lap, reader.buffer⟩, .lapped rfl rfl time⟩

theorem Sim.step_spin (reader : SameReader c l) (time : c.timestamp = l.timestamp) {size : ℕ}
    (ex : c.pc = .spin size) (lib : l.pc = .spin size) :
    Sim (c.step ring rxBufSize) (l.step ring rxBufSize) := by
  simp only [Call.step, LibCall.step, ex, lib, reader.slot, reader.lap]
  split
  · exact ⟨reader, .spin ex lib time⟩
  · split
    · exact ⟨⟨reader.slot, reader.lap, reader.buffer⟩, .lapped rfl rfl time⟩
    · exact Sim.accept reader time _ _

theorem Sim.step_copy (reader : SameReader c l) (time : c.timestamp = l.timestamp) {chunk size : ℕ}
    {info : RxChunkInfo} (ex : c.pc = .copy chunk info size) (lib : l.pc = .copy chunk info size) :
    Sim (c.step ring rxBufSize) (l.step ring rxBufSize) := by
  simp only [Call.step, LibCall.step, ex, lib, Call.processChunk, LibCall.processChunk]
  by_cases last : info.length ≠ 0
  · rw [if_pos last, if_pos last]
    by_cases tooLong : size + info.length.toNat > rxBufSize
    · rw [if_pos tooLong, if_pos tooLong]
      exact ⟨⟨reader.slot, reader.lap, reader.buffer⟩, .done rfl (by simp) time⟩
    · rw [if_neg tooLong, if_neg tooLong]
      refine ⟨⟨reader.slot, reader.lap, ?_⟩, .checking last rfl rfl rfl⟩
      show Memory.copy c.rxBuf _ _ = Memory.copy l.rxBuf _ _
      rw [reader.buffer]
  · rw [if_neg last, if_neg last]
    refine ⟨⟨reader.slot, reader.lap, ?_⟩, .spin rfl rfl time⟩
    show (if _ then Memory.copy c.rxBuf _ _ else c.rxBuf) =
      if _ then Memory.copy l.rxBuf _ _ else l.rxBuf
    rw [reader.buffer]

/-- The sentinel still stands: the library returns what the copy has returned
already. -/
theorem Sim.step_check (reader : SameReader c l) {chunk size : ℕ} {generation : UInt8}
    {info : RxChunkInfo} (last : info.length ≠ 0)
    (ex : c.pc = .done (size + info.length.toNat : ℕ)
      (info.frameStatus &&& exanicRxFrameErrorMask).toNat)
    (lib : l.pc = .check chunk generation info size) (time : c.timestamp = info.timestamp)
    (sentinel : (ring chunk).info.generation = generation) :
    Sim (c.step ring rxBufSize) (l.step ring rxBufSize) := by
  have positive : 0 < info.length.toNat :=
    Nat.pos_of_ne_zero fun zero => last (UInt8.toNat_inj.1 zero)
  have stays : c.step ring rxBufSize = c := by simp only [Call.step, ex]
  rw [stays]
  simp only [LibCall.step, lib, sentinel, ne_eq, not_true_eq_false, if_false]
  refine ⟨⟨reader.slot, reader.lap, reader.buffer⟩, .done ex ?_ time⟩
  show LibPc.done _ = LibPc.done _
  by_cases clean : info.frameStatus &&& exanicRxFrameErrorMask = 0
  · have zero : (info.frameStatus &&& exanicRxFrameErrorMask).toNat = 0 := by rw [clean]; rfl
    rw [if_neg (not_not.2 clean), if_pos ⟨by omega, zero⟩]
  · have nonzero : (info.frameStatus &&& exanicRxFrameErrorMask).toNat ≠ 0 :=
      fun zero => clean (UInt8.toNat_inj.1 zero)
    rw [if_pos clean, if_neg fun both => nonzero both.2]

/-- **One access keeps the calls in correspondence.** -/
theorem Sim.step (sim : Sim c l)
    (sentinel : ∀ chunk generation info size, l.pc = .check chunk generation info size →
      (ring chunk).info.generation = generation) :
    Sim (c.step ring rxBufSize) (l.step ring rxBufSize) := by
  obtain ⟨reader, abreast⟩ := sim
  cases abreast with
  | entry ex lib time => exact Sim.step_entry reader time ex lib
  | copy ex lib time => exact Sim.step_copy reader time ex lib
  | spin ex lib time => exact Sim.step_spin reader time ex lib
  | lapped ex lib time =>
      simp only [Call.step, LibCall.step, ex, lib]
      obtain ⟨slot, lap⟩ := catchup_congr (fun i => (ring i).info) c.rx l.rx
      exact ⟨⟨slot, lap, reader.buffer⟩, .done rfl (by simp) time⟩
  | checking last ex lib time =>
      exact Sim.step_check reader last ex lib time (sentinel _ _ _ _ lib)
  | done ex lib time =>
      have stays : c.step ring rxBufSize = c := by simp only [Call.step, ex]
      have stays' : l.step ring rxBufSize = l := by simp only [LibCall.step, lib]
      rw [stays, stays']
      exact ⟨reader, .done ex lib time⟩

end Steps

/-! ## Agreement -/

section Agreement

variable {rings : ℕ → ℕ → RxChunk} {rxBufSize : ℕ} {c : Call} {l : LibCall}

/-- Both calls begin with the same handle, buffer and time stamp. -/
structure Begins (c : Call) (l : LibCall) : Prop where
  entry : c.pc = .entry
  libEntry : l.pc = .entry
  rx : c.rx = l.rx
  buffer : c.rxBuf = l.rxBuf
  time : c.timestamp = l.timestamp

/-- Whenever the library looks at its sentinel chunk, that chunk still carries the
generation it was recorded with. -/
def SentinelStands (rings : ℕ → ℕ → RxChunk) (rxBufSize : ℕ) (l : LibCall) : Prop :=
  ∀ k chunk generation info size,
    (l.run rings rxBufSize k).pc = .check chunk generation info size →
      (rings k chunk).info.generation = generation

theorem Begins.sim (begins : Begins c l) : Sim c l :=
  ⟨⟨by rw [begins.rx], by rw [begins.rx], begins.buffer⟩,
    .entry begins.entry begins.libEntry begins.time⟩

theorem run_sim (begins : Begins c l) (sentinel : SentinelStands rings rxBufSize l) (k : ℕ) :
    Sim (c.run rings rxBufSize k) (l.run rings rxBufSize k) := by
  apply Lockstep.run_related begins.sim
  intro k sim
  exact sim.step (sentinel k)

theorem Call.outcome_done {ret : Int} {frameStatus : ℕ} (pc : c.pc = .done ret frameStatus) :
    c.outcome = some
      { ret, frameStatus, nextChunk := c.rx.nextChunk, generation := c.rx.generation
        rxBuf := c.rxBuf, timestamp := c.timestamp } := by
  simp only [Call.outcome, pc]

theorem LibCall.outcome_done {ret : Int} (pc : l.pc = .done ret) :
    l.outcome = some
      { ret, nextChunk := l.rx.nextChunk, generation := l.rx.generation
        rxBuf := l.rxBuf, timestamp := l.timestamp } := by
  simp only [LibCall.outcome, pc]

/-- When the library has answered, the copy has, and with the same results. -/
theorem Sim.back (sim : Sim c l) {o : LibOutcome} (answered : l.outcome = some o) :
    ∃ o', c.outcome = some o' ∧ o = o'.asLibrary := by
  obtain ⟨reader, abreast⟩ := sim
  cases abreast with
  | entry ex lib time => simp [LibCall.outcome, lib] at answered
  | copy ex lib time => simp [LibCall.outcome, lib] at answered
  | spin ex lib time => simp [LibCall.outcome, lib] at answered
  | lapped ex lib time => simp [LibCall.outcome, lib] at answered
  | checking last ex lib time => simp [LibCall.outcome, lib] at answered
  | done ex lib time =>
      rw [LibCall.outcome_done lib] at answered
      obtain rfl := Option.some.inj answered
      refine ⟨_, Call.outcome_done ex, ?_⟩
      simp only [Outcome.asLibrary, reader.slot, reader.lap, reader.buffer, time]

/-- When the copy has answered, the library answers with the next access. -/
theorem Sim.forth {ring : ℕ → RxChunk} (sim : Sim c l)
    (sentinel : ∀ chunk generation info size, l.pc = .check chunk generation info size →
      (ring chunk).info.generation = generation) {o : Outcome} (answered : c.outcome = some o) :
    (l.step ring rxBufSize).outcome = some o.asLibrary := by
  obtain ⟨ret, frameStatus, ex⟩ : ∃ ret frameStatus, c.pc = .done ret frameStatus := by
    unfold Call.outcome at answered
    split at answered
    · rename_i ret frameStatus pc
      exact ⟨ret, frameStatus, pc⟩
    · exact absurd answered (by simp)
  have stays : c.step ring rxBufSize = c := by simp only [Call.step, ex]
  have stepped : Sim c (l.step ring rxBufSize) := stays ▸ sim.step sentinel
  have settled : ∃ ret, (l.step ring rxBufSize).pc = .done ret := by
    cases sim.abreast with
    | entry ex' => simp [ex] at ex'
    | copy ex' => simp [ex] at ex'
    | spin ex' => simp [ex] at ex'
    | lapped ex' => simp [ex] at ex'
    | checking last ex' lib time =>
        simp only [LibCall.step, lib, sentinel _ _ _ _ lib, ne_eq, not_true_eq_false, if_false]
        exact ⟨_, rfl⟩
    | done ex' lib time =>
        simp only [LibCall.step, lib]
        exact ⟨_, rfl⟩
  obtain ⟨ret', lib⟩ := settled
  obtain ⟨o', answered', same⟩ := stepped.back (LibCall.outcome_done lib)
  rw [LibCall.outcome_done lib, same, ← Option.some.inj (answered.symm.trans answered')]

/-- The library returns exactly what the copy returns, in its own convention. -/
theorem libReturns_iff (begins : Begins c l) (sentinel : SentinelStands rings rxBufSize l)
    (o : LibOutcome) :
    l.Returns rings rxBufSize o ↔
      ∃ o', c.Returns rings rxBufSize o' ∧ o = o'.asLibrary := by
  apply Lockstep.returns_iff Outcome.asLibrary
  · intro k o answered
    exact (run_sim begins sentinel k).forth (sentinel k) answered
  · intro k o answered
    exact (run_sim begins sentinel k).back answered

/-! ### Which results there are -/

/-- A frame with the hardware's status bits, or none with one of three codes. -/
def Outcome.Shape (o : Outcome) : Prop :=
  (0 < o.ret ∧ o.frameStatus ≤ exanicRxFrameErrorMask.toNat) ∨
    (o.ret = -1 ∧ (o.frameStatus = exanicRxFrameOk ∨ o.frameStatus = exanicRxFrameTruncated ∨
      o.frameStatus = exanicRxFrameSwovfl))

/-- A call that has returned has returned one of these. -/
def Call.Shaped (c : Call) : Prop :=
  ∀ o, c.outcome = some o → o.Shape

theorem Call.shaped_running (running : c.outcome = none) : c.Shaped := by
  intro o answered
  rw [running] at answered
  exact absurd answered (by simp)

theorem Call.shaped_refused {status : ℕ} (pc : c.pc = .done (-1) status)
    (code : status = exanicRxFrameOk ∨ status = exanicRxFrameTruncated ∨
      status = exanicRxFrameSwovfl) : c.Shaped := by
  intro o answered
  rw [Call.outcome_done pc] at answered
  obtain rfl := Option.some.inj answered
  exact Or.inr ⟨rfl, code⟩

theorem Call.Shaped.step (shaped : c.Shaped) (ring : ℕ → RxChunk) :
    (c.step ring rxBufSize).Shaped := by
  have access := c.step_access ring rxBufSize
  generalize c.step ring rxBufSize = next at access ⊢
  cases access with
  | stays => exact shaped
  | accepts size => exact Call.shaped_running rfl
  | laps => exact Call.shaped_running rfl
  | more pc more => exact Call.shaped_running rfl
  | idle pc => exact Call.shaped_refused rfl (Or.inl rfl)
  | truncated pc last tooLong => exact Call.shaped_refused rfl (Or.inr (Or.inl rfl))
  | scans pc => exact Call.shaped_refused rfl (Or.inr (Or.inr rfl))
  | @delivered chunk size info pc last fits =>
      intro o answered
      rw [Call.outcome_done rfl] at answered
      obtain rfl := Option.some.inj answered
      have positive : 0 < info.length.toNat :=
        Nat.pos_of_ne_zero fun zero => last (UInt8.toNat_inj.1 zero)
      refine Or.inl ⟨?_, ?_⟩
      · show (0 : Int) < (size + info.length.toNat : ℕ)
        omega
      · rw [UInt8.toNat_and]
        exact Nat.and_le_right

theorem Returns.shape (entry : c.pc = .entry) {o : Outcome}
    (returns : c.Returns rings rxBufSize o) : o.Shape := by
  have shaped : ∀ k, (c.run rings rxBufSize k).Shaped := by
    intro k
    induction k with
    | zero =>
        apply Call.shaped_running
        show c.outcome = none
        simp only [Call.outcome, entry]
    | succ k ih => exact ih.step _
  obtain ⟨k, answered⟩ := returns
  exact shaped k o answered

/-! ### The clauses -/

/-- A result of the copy and a number of the library that mean the same. -/
theorem returns_clause (begins : Begins c l) (sentinel : SentinelStands rings rxBufSize l)
    (p : Outcome → Prop) (r : Int) (means : ∀ o : Outcome, o.Shape → (p o ↔ o.asLibrary.ret = r)) :
    (∃ o, c.Returns rings rxBufSize o ∧ p o) ↔ ∃ o, l.Returns rings rxBufSize o ∧ o.ret = r := by
  constructor
  · rintro ⟨o, returns, holds⟩
    exact ⟨o.asLibrary, (libReturns_iff begins sentinel _).2 ⟨o, returns, rfl⟩,
      (means o (Returns.shape begins.entry returns)).1 holds⟩
  · rintro ⟨o', returns', number⟩
    obtain ⟨o, returns, rfl⟩ := (libReturns_iff begins sentinel _).1 returns'
    exact ⟨o, returns, (means o (Returns.shape begins.entry returns)).2 number⟩

/-- What the two calls have in common. -/
structure Agrees (rings : ℕ → ℕ → RxChunk) (rxBufSize : ℕ) (c : Call) (l : LibCall) : Prop where
  clean : ∀ n : Int, 0 < n →
    ((∃ o, c.Returns rings rxBufSize o ∧ o.ret = n ∧ o.frameStatus = exanicRxFrameOk) ↔
      ∃ o, l.Returns rings rxBufSize o ∧ o.ret = n)
  damaged : ∀ s : ℕ, 0 < s → s ≤ exanicRxFrameErrorMask.toNat →
    ((∃ o, c.Returns rings rxBufSize o ∧ 0 < o.ret ∧ o.frameStatus = s) ↔
      ∃ o, l.Returns rings rxBufSize o ∧ o.ret = -s)
  refused : ∀ s : ℕ, s = exanicRxFrameTruncated ∨ s = exanicRxFrameSwovfl →
    ((∃ o, c.Returns rings rxBufSize o ∧ o.ret = -1 ∧ o.frameStatus = s) ↔
      ∃ o, l.Returns rings rxBufSize o ∧ o.ret = -s)
  idle : (∃ o, c.Returns rings rxBufSize o ∧ o.ret = -1 ∧ o.frameStatus = exanicRxFrameOk) ↔
    ∃ o, l.Returns rings rxBufSize o ∧ o.ret = 0
  same : ∀ o o', c.Returns rings rxBufSize o → l.Returns rings rxBufSize o' →
    o'.nextChunk = o.nextChunk ∧ o'.generation = o.generation ∧
      (0 < o.ret → o'.rxBuf = o.rxBuf ∧ o'.timestamp = o.timestamp)

theorem outcome_settled :
    Lockstep.Settled (fun ring (c : Call) => c.step ring rxBufSize) Call.outcome := by
  intro ring c o answered
  have stays : c.step ring rxBufSize = c := by
    unfold Call.outcome at answered
    split at answered
    · rename_i pc
      simp only [Call.step, pc]
    · exact absurd answered (by simp)
  show (c.step ring rxBufSize).outcome = some o
  rw [stays]
  exact answered

/-- **`main.c`'s receiver and the library's agree**, whatever the ring does during the
call, as long as the library finds its sentinel chunk untouched. -/
theorem receiveFrame_agrees (begins : Begins c l) (sentinel : SentinelStands rings rxBufSize l) :
    Agrees rings rxBufSize c l where
  clean := by
    intro n positive
    apply returns_clause begins sentinel
    intro o shape
    simp only [Outcome.Shape, Outcome.asLibrary, exanicRxFrameOk] at shape ⊢
    split <;> omega
  damaged := by
    intro s positive hardware
    apply returns_clause begins sentinel
    intro o shape
    have mask : exanicRxFrameErrorMask.toNat = 15 := rfl
    simp only [Outcome.Shape, Outcome.asLibrary, exanicRxFrameOk, exanicRxFrameTruncated,
      exanicRxFrameSwovfl] at shape ⊢
    split <;> omega
  refused := by
    intro s code
    apply returns_clause begins sentinel
    intro o shape
    have mask : exanicRxFrameErrorMask.toNat = 15 := rfl
    simp only [Outcome.Shape, Outcome.asLibrary, exanicRxFrameOk, exanicRxFrameTruncated,
      exanicRxFrameSwovfl] at shape code ⊢
    split <;> omega
  idle := by
    apply returns_clause begins sentinel
    intro o shape
    simp only [Outcome.Shape, Outcome.asLibrary, exanicRxFrameOk] at shape ⊢
    split <;> omega
  same := by
    intro o o' returns returns'
    obtain ⟨o'', again, rfl⟩ := (libReturns_iff begins sentinel _).1 returns'
    obtain rfl := Lockstep.Returns.unique outcome_settled again returns
    exact ⟨rfl, rfl, fun _ => ⟨rfl, rfl⟩⟩

end Agreement

/-! ## Poles: a frame of two bytes, seen by both -/

namespace Poles

/-- A frame in slot 0; the lap before it everywhere else. -/
def single : ℕ → RxChunk := fun slot =>
  if slot = 0 then
    { payload := Vector.replicate _ 1
      info := { timestamp := 9, frameStatus := 0, length := 2, matchedFilter := 0
                generation := 0 } }
  else
    { payload := Vector.replicate _ 0
      info := { timestamp := 0, frameStatus := 0, length := 1, matchedFilter := 0
                generation := 255 } }

def reader : ExanicRx :=
  { nextChunk := 0, generation := 0, sentinelChunk := 16383, sentinelChunkGeneration := 255 }

def exCall : Call :=
  { rx := reader, rxBuf := fun _ => 0, timestamp := 0, pc := .entry }

def libCall : LibCall :=
  { rx := reader, rxBuf := fun _ => 0, timestamp := 0, pc := .entry }

theorem libCall_done (k : ℕ) : (libCall.run (fun _ => single) 16384 (k + 3)).pc = .done 2 := by
  induction k with
  | zero => decide
  | succ k ih =>
      show ((libCall.run (fun _ => single) 16384 (k + 3)).step single 16384).pc = .done 2
      simp only [LibCall.step, ih]

theorem libCall_sentinel : SentinelStands (fun _ => single) 16384 libCall := by
  intro k chunk generation info size check
  match k with
  | 0 => exact LibPc.noConfusion check
  | 1 =>
      have found : (libCall.run (fun _ => single) 16384 1).pc = .copy 0 (single 0).info 0 := by
        decide
      rw [found] at check
      exact LibPc.noConfusion check
  | 2 =>
      have found : (libCall.run (fun _ => single) 16384 2).pc = .check 16383 255 (single 0).info 0 :=
        by decide
      rw [found] at check
      obtain ⟨rfl, rfl, -⟩ := LibPc.check.inj check
      decide
  | k + 3 =>
      rw [libCall_done k] at check
      exact LibPc.noConfusion check

theorem receiveFrame_agrees_single :
    ∃ o, libCall.Returns (fun _ => single) 16384 o ∧ o.ret = 2 :=
  ((receiveFrame_agrees (c := exCall) ⟨rfl, rfl, rfl, rfl, rfl⟩ libCall_sentinel).clean 2
    (by decide)).1 ⟨_, ⟨2, rfl⟩, rfl, rfl⟩

end Poles

end ExanicCapture.Rx
