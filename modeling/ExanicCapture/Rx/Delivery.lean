/-
# Rx.Delivery -- no silent loss, duplication or reordering

`ChunkStep` is the coarser interleaving in which a chunk's word and payload are
read in one step.  Such runs are runs of `Step` in which no frame is ever torn, so
their logs are accounts that deliver every frame exactly.  The account is then read
in its own terms: the delivered frames increase (`Account.deliveries`), and a
stretch of calls that reports no loss delivers consecutive frames
(`Account.unreported`).
-/
import ExanicCapture.Rx.Refinement

namespace ExanicCapture.Rx

set_option autoImplicit false

open Theory

variable {hw : Hardware} {rxBufSize first : ℕ}

/-! ## Reading an account -/

section Accounts

variable {D : Returned → Frame → Prop}

theorem Moves.imp {D' : Returned → Frame → Prop} {c next : ℕ} {r : Returned}
    (moves : Moves D hw rxBufSize c r next) (implies : ∀ f, D r f → D' r f) :
    Moves D' hw rxBufSize c r next := by
  cases moves with
  | delivered fits delivers => exact .delivered fits (implies _ delivers)
  | idle ret status nothing => exact .idle ret status nothing
  | truncated ret status tooLong => exact .truncated ret status tooLong
  | overrun ret status lapped resumed => exact .overrun ret status lapped resumed

theorem Account.imp {D' : Returned → Frame → Prop} {log : List Returned} {last : ℕ}
    (account : Account D hw rxBufSize first log last)
    (implies : ∀ r ∈ log, ∀ f, D r f → D' r f) : Account D' hw rxBufSize first log last := by
  induction account with
  | start => exact .start
  | call before moves ih =>
      exact .call (ih fun r member => implies r (List.mem_append_left _ member))
        (moves.imp (implies _ (by simp)))

/-- The account of a log is made of the accounts of its parts. -/
theorem Account.split {log : List Returned} {last : ℕ}
    (account : Account D hw rxBufSize first log last) :
    ∀ {pre post : List Returned}, log = pre ++ post →
      ∃ c, Account D hw rxBufSize first pre c ∧ Account D hw rxBufSize c post last := by
  induction account with
  | start =>
      intro pre post parts
      obtain ⟨rfl, rfl⟩ := List.append_eq_nil_iff.1 parts.symm
      exact ⟨first, .start, .start⟩
  | @call log c next r before moves ih =>
      intro pre post parts
      rcases List.eq_nil_or_concat' post with rfl | ⟨post, r', rfl⟩
      · rw [List.append_nil] at parts
        exact ⟨next, parts ▸ .call before moves, .start⟩
      · rw [← List.append_assoc] at parts
        obtain ⟨rfl, same⟩ := List.append_inj' parts rfl
        obtain rfl := List.singleton_injective same
        obtain ⟨middle, front, back⟩ := ih rfl
        exact ⟨middle, front, .call back moves⟩

/-- No call moves the receiver back, and an overrun or a frame moves it on. -/
theorem Moves.forward {c next : ℕ} {r : Returned} (moves : Moves D hw rxBufSize c r next) :
    c ≤ next := by
  cases moves with
  | delivered | truncated => exact Nat.le_succ c
  | idle => exact le_rfl
  | overrun _ _ lapped resumed =>
      have := hw.start_succ_le c
      have : hw.start (c + 1) < hw.start (next + 1) := by omega
      have := hw.start_strictMono.lt_iff_lt.1 this
      omega

theorem Account.forward {log : List Returned} {last : ℕ}
    (account : Account D hw rxBufSize first log last) : first ≤ last := by
  induction account with
  | start => exact le_rfl
  | call _ moves ih => exact ih.trans moves.forward

/-- The calls that delivered something. -/
def deliveries (log : List Returned) : List Returned :=
  log.filter fun r => 0 ≤ r.ret

/-- A call either delivers the frame the receiver stands at or nothing. -/
theorem Moves.deliveries (nonneg : ∀ r f, D r f → 0 ≤ r.ret) {c next : ℕ} {r : Returned}
    (moves : Moves D hw rxBufSize c r next) (log : List Returned) :
    (D r (hw.frame c) ∧ next = c + 1 ∧ deliveries (log ++ [r]) = deliveries log ++ [r]) ∨
      (r.ret = -1 ∧ deliveries (log ++ [r]) = deliveries log) := by
  cases moves with
  | delivered fits delivers =>
      exact Or.inl ⟨delivers, rfl, by simp [Rx.deliveries, nonneg _ _ delivers]⟩
  | idle ret | truncated ret | overrun ret =>
      exact Or.inr ⟨ret, by simp [Rx.deliveries, ret]⟩

/-- The delivered frames are increasing: none twice, none out of order. -/
theorem Account.deliveries (nonneg : ∀ r f, D r f → 0 ≤ r.ret) {log : List Returned} {last : ℕ}
    (account : Account D hw rxBufSize first log last) :
    ∃ frames : List ℕ, List.Forall₂ (fun r i => D r (hw.frame i)) (deliveries log) frames ∧
      frames.Pairwise (· < ·) ∧ ∀ i ∈ frames, first ≤ i ∧ i < last := by
  induction account with
  | start => exact ⟨[], .nil, .nil, by simp⟩
  | @call log c next r before moves ih =>
      obtain ⟨frames, matched, increasing, bounded⟩ := ih
      rcases moves.deliveries nonneg log with ⟨delivers, rfl, grown⟩ | ⟨-, same⟩
      · refine ⟨frames ++ [c], ?_, ?_, fun i member => ?_⟩
        · rw [grown]
          exact List.rel_append matched (.cons delivers .nil)
        · refine List.pairwise_append.2 ⟨increasing, by simp, ?_⟩
          intro i member j single
          rw [List.mem_singleton] at single
          exact single ▸ (bounded i member).2
        · rcases List.mem_append.1 member with old | new
          · have := bounded i old
            omega
          · have := before.forward
            rw [List.mem_singleton] at new
            omega
      · refine ⟨frames, by rwa [same], increasing, ?_⟩
        intro i member
        have := bounded i member
        have := moves.forward
        omega

/-- No call reported a loss. -/
def Unreported (log : List Returned) : Prop :=
  ∀ r ∈ log, r.ret < 0 → r.frameStatus = exanicRxFrameOk

/-- A call that reports no loss delivers the next frame or stays. -/
theorem Moves.unreported (nonneg : ∀ r f, D r f → 0 ≤ r.ret) {c next : ℕ} {r : Returned}
    (moves : Moves D hw rxBufSize c r next)
    (unreported : r.ret < 0 → r.frameStatus = exanicRxFrameOk) :
    0 ≤ r.ret ∨ next = c := by
  cases moves with
  | delivered fits delivers => exact Or.inl (nonneg _ _ delivers)
  | idle => exact Or.inr rfl
  | truncated ret status | overrun ret status =>
      have ok := unreported (by omega)
      rw [status] at ok
      exact absurd ok (by decide)

/-- Without a report no frame is skipped. -/
theorem Account.unreported (nonneg : ∀ r f, D r f → 0 ≤ r.ret) {log : List Returned} {last : ℕ}
    (account : Account D hw rxBufSize first log last) (unreported : Unreported log) :
    List.Forall₂ (fun r i => D r (hw.frame i)) (Rx.deliveries log)
      (List.range' first (last - first)) := by
  induction account with
  | start => simp [Rx.deliveries]
  | @call log c next r before moves ih =>
      have ih := ih fun r member => unreported r (List.mem_append_left _ member)
      rcases moves.deliveries nonneg log with ⟨delivers, rfl, grown⟩ | ⟨failed, same⟩
      · have order := before.forward
        rw [grown, Nat.sub_add_comm order, List.range'_concat, Nat.one_mul,
          Nat.add_sub_cancel' order]
        exact List.rel_append ih (.cons delivers .nil)
      · rcases moves.unreported nonneg (unreported r (by simp)) with delivered | rfl
        · omega
        · rwa [same]

end Accounts

/-! ## Chunks read in one step -/

/-- The reader looks at one chunk: its word and, if it is accepted, its payload. -/
def Sys.readChunk (rxBufSize : ℕ) (s : Sys) : Sys :=
  match (s.read rxBufSize).call.pc with
  | .copy _ _ _ => (s.read rxBufSize).read rxBufSize
  | _ => s.read rxBufSize

/-- One chunk of the card, or one chunk (or one catch-up scan) of the reader. -/
inductive ChunkStep (hw : Hardware) (rxBufSize : ℕ) : Sys → Sys → Prop where
  | write {s : Sys} (room : s.CanWrite hw) : ChunkStep hw rxBufSize s (s.write hw)
  | read {s : Sys} : ChunkStep hw rxBufSize s (s.readChunk rxBufSize)

theorem ChunkStep.steps {s t : Sys} (step : ChunkStep hw rxBufSize s t) :
    Relation.ReflTransGen (Step hw rxBufSize) s t := by
  cases step with
  | write room => exact .single (.write room)
  | read =>
      unfold Sys.readChunk
      split
      · exact .tail (.single .read) .read
      · exact .single .read

/-- Nothing is torn so far. -/
structure Sys.Whole (s : Sys) : Prop where
  call : s.torn = false
  log : ∀ r ∈ s.log, r.torn = false

theorem Sys.Whole.read {s : Sys} (whole : s.Whole) (kept : s.tears rxBufSize = false) :
    (s.read rxBufSize).Whole := by
  have untorn : (s.torn || s.tears rxBufSize) = false := by simp [whole.call, kept]
  unfold Sys.read
  split
  · refine ⟨rfl, ?_⟩
    intro r member
    rcases List.mem_append.1 member with old | new
    · exact whole.log r old
    · rw [List.mem_singleton.1 new]
      exact untorn
  · exact ⟨untorn, whole.log⟩

/-- The word of an accepted chunk was loaded in the access before. -/
theorem Sys.read_copy_tears {s : Sys} (notCopying : ∀ chunk info size, s.call.pc ≠ .copy chunk info size)
    {chunk size : ℕ} {info : RxChunkInfo}
    (copying : (s.read rxBufSize).call.pc = .copy chunk info size) :
    (s.read rxBufSize).tears rxBufSize = false := by
  have loaded : (s.read rxBufSize).loadedAt = (s.read rxBufSize).written := by
    unfold Sys.read at copying ⊢
    split at copying
    · exact absurd copying (by simp [Sys.finish])
    · show s.nextLoadedAt = s.written
      cases pc : s.call.pc with
      | entry | spin => simp [Sys.nextLoadedAt, pc]
      | copy chunk' info' size' => exact absurd pc (notCopying _ _ _)
      | lapped | done => simp [Sys.goOn, Call.step, pc] at copying
  simp only [Sys.tears, copying, Sys.overwritten, loaded]
  refine Bool.and_eq_false_iff.2 (Or.inr (decide_eq_false ?_))
  intro torn
  obtain ⟨k, before, after, -⟩ := torn
  exact absurd before (Nat.not_lt.2 after)

/-- Between two chunks no copy is pending. -/
def Sys.BetweenChunks (s : Sys) : Prop :=
  ∀ chunk info size, s.call.pc ≠ .copy chunk info size

theorem Sys.read_copy_between {s : Sys} {chunk size : ℕ} {info : RxChunkInfo}
    (copying : s.call.pc = .copy chunk info size) : (s.read rxBufSize).BetweenChunks := by
  intro chunk' info' size'
  unfold Sys.read
  split
  · simp [Sys.finish]
  · by_cases last : info.length = 0
    · simp [Sys.goOn, Call.step_copy copying, Call.processChunk_more last]
    · rename_i running
      by_cases fits : size + info.length.toNat ≤ rxBufSize
      · simp [Call.step_copy copying, Call.processChunk_delivered last fits] at running
      · simp [Call.step_copy copying, Call.processChunk_truncated last (Nat.lt_of_not_le fits)]
          at running

theorem ChunkStep.whole {s t : Sys} (step : ChunkStep hw rxBufSize s t) (whole : s.Whole)
    (between : s.BetweenChunks) : t.Whole ∧ t.BetweenChunks := by
  cases step with
  | write room => exact ⟨⟨whole.call, whole.log⟩, between⟩
  | read =>
      have kept : s.tears rxBufSize = false := by
        unfold Sys.tears
        split
        · rename_i copying
          exact absurd copying (between _ _ _)
        · rfl
      unfold Sys.readChunk
      split
      · rename_i copying
        exact ⟨(whole.read kept).read (Sys.read_copy_tears between copying),
          Sys.read_copy_between copying⟩
      · rename_i notCopying
        exact ⟨whole.read kept, fun _ _ _ => notCopying _ _ _⟩

theorem chunkRun_whole {s t : Sys} (initial : s.Initial hw first)
    (run : Relation.ReflTransGen (ChunkStep hw rxBufSize) s t) : t.Whole ∧ t.BetweenChunks := by
  induction run with
  | refl =>
      refine ⟨⟨initial.whole, by simp [initial.log]⟩, ?_⟩
      intro _ _ _
      simp [initial.entry]
  | tail _ step ih => exact step.whole ih.1 ih.2

theorem chunkRun_steps {s t : Sys} (run : Relation.ReflTransGen (ChunkStep hw rxBufSize) s t) :
    Relation.ReflTransGen (Step hw rxBufSize) s t := by
  induction run with
  | refl => exact .refl
  | tail _ step ih => exact ih.trans step.steps

/-- The log of a run whose chunks are read in one step is an account that
delivers every frame exactly. -/
theorem chunkRun_account {s t : Sys} (initial : s.Initial hw first)
    (run : Relation.ReflTransGen (ChunkStep hw rxBufSize) s t) :
    ∃ last, Account Delivers hw rxBufSize first t.log last := by
  obtain ⟨last, account, -⟩ := (inv_run initial (chunkRun_steps run)).place
  refine ⟨last, account.imp ?_⟩
  intro r member f delivers
  exact ⟨delivers.ret, delivers.frameStatus, delivers.timestamp,
    delivers.data ((chunkRun_whole initial run).1.log r member)⟩

theorem Delivers.nonneg (r : Returned) (f : Frame) (delivers : Delivers r f) : 0 ≤ r.ret := by
  have := delivers.ret
  omega

/-- **No silent loss, duplication or reordering.**  Every run's log is an account
of the abstract receiver from the frame the reader started at.  In particular
every call that returns a size delivers one whole frame, the delivered frames come
in stream order and none comes twice, and between two calls that report a loss the
delivered frames are consecutive. -/
theorem receiveFrameEx_accounts {s t : Sys} (initial : s.Initial hw first)
    (run : Relation.ReflTransGen (ChunkStep hw rxBufSize) s t) :
    (∃ last, Account Delivers hw rxBufSize first t.log last) ∧
      (∃ frames : List ℕ, List.Forall₂ (fun r i => Delivers r (hw.frame i)) (deliveries t.log) frames ∧
        frames.Pairwise (· < ·) ∧ ∀ i ∈ frames, first ≤ i) ∧
      ∀ before calls after, t.log = before ++ calls ++ after → Unreported calls →
        ∃ i count, List.Forall₂ (fun r i => Delivers r (hw.frame i)) (deliveries calls)
          (List.range' i count) := by
  obtain ⟨last, account⟩ := chunkRun_account initial run
  refine ⟨⟨last, account⟩, ?_, ?_⟩
  · obtain ⟨frames, matched, increasing, bounded⟩ := account.deliveries Delivers.nonneg
    exact ⟨frames, matched, increasing, fun i member => (bounded i member).1⟩
  · intro before calls after parts unreported
    obtain ⟨_, front, -⟩ := account.split parts
    obtain ⟨i, -, middle⟩ := front.split rfl
    exact ⟨i, _, middle.unreported Delivers.nonneg unreported⟩

/-! ## Poles: calls that collect a frame, or find that they were lapped -/

namespace Poles

variable {s : Sys}

/-- No call is in progress, and the reader stands at position `p`. -/
structure Waits (p : ℕ) (s : Sys) : Prop where
  ring : s.ring = card.ringAfter s.written
  stands : s.StandsAt card p
  entry : s.call.pc = .entry
  whole : s.torn = false
  timestamp : s.call.timestamp = 0

/-- What a call returns that collects frame `p`. -/
def collected (p seen : ℕ) : Returned where
  ret := (card.frame p).payload.length
  frameStatus := 0
  timestamp := 0
  data := (card.frame p).payload
  torn := false
  seen

/-- What a call returns that was lapped. -/
def overrun (seen : ℕ) : Returned where
  ret := -1
  frameStatus := exanicRxFrameSwovfl
  timestamp := 0
  data := []
  torn := false
  seen

theorem idle_waits : Waits 0 idle := ⟨rfl, idle_stands, rfl, rfl, rfl⟩

theorem Waits.writes {p : ℕ} (waits : Waits p s) (n : ℕ)
    (room : s.written + n ≤ p + 255 * exanicRxNumChunks) : Waits p (s.writes card n) := by
  obtain ⟨written, call, torn, -⟩ := s.writes_frame card n
  have reached := waits.stands.reached
  exact ⟨Sys.writes_ring waits.ring n,
    ⟨call ▸ waits.stands.slot, call ▸ waits.stands.lap, by omega, by omega⟩,
    call ▸ waits.entry, torn ▸ waits.whole, call ▸ waits.timestamp⟩

/-- Runs of whole chunks that lead to a reader waiting at position `p`. -/
structure Reaches (p written : ℕ) (log : List Returned) (s : Sys) : Prop where
  run : Relation.ReflTransGen (ChunkStep card 16384) idle s
  waits : Waits p s
  written : s.written = written
  log : s.log = log

theorem Reaches.writes {p w : ℕ} {log : List Returned} (reaches : Reaches p w log s) (n : ℕ)
    (room : w + n ≤ p + 255 * exanicRxNumChunks) : Reaches p (w + n) log (s.writes card n) := by
  obtain rfl := reaches.written
  obtain ⟨written, -, -, log⟩ := s.writes_frame card n
  exact ⟨reaches.run.trans (reaches.waits.stands.writes .write n room),
    reaches.waits.writes n room, written, log.trans reaches.log⟩

theorem card_payload_eq (p : ℕ) : (card.frame p).payload = (card.frame p).last.bytes := by
  rw [Frame.payload_eq, card_body, List.flatMap_nil, List.nil_append]

theorem card_payload_length (p : ℕ) :
    (card.frame p).payload.length = (card.frame p).last.length.toNat := by
  rw [Frame.payload_length, card_body, List.length_nil, Nat.mul_zero, Nat.zero_add]

/-- The word of a chunk: the last one of its frame, without an error. -/
theorem card_info (p : ℕ) : (card.chunk p).info.length ≠ 0 ∧
    (card.chunk p).info.length.toNat = (card.frame p).payload.length ∧
      ((card.chunk p).info.frameStatus &&& exanicRxFrameErrorMask).toNat = 0 ∧
        (card.chunk p).info.timestamp = 0 := by
  refine ⟨?_, ?_, ?_, ?_⟩
  · show (card.stream.entry p).length ≠ 0
    rw [card_last]
    exact (card.frame p).last_ne_zero
  · show (card.stream.entry p).length.toNat = _
    rw [card_last, card_payload_length]
  · show ((card.stream.entry p).frameStatus &&& exanicRxFrameErrorMask).toNat = 0
    rw [card_last, (card_status p).1]
    rfl
  · show (card.stream.entry p).timestamp = 0
    rw [card_last, (card_status p).2]

section Collects

variable {p : ℕ} (waits : Waits p s) (written : p < s.written)
  (recent : s.written ≤ p + exanicRxNumChunks)
include waits written recent

theorem Waits.chunk : s.ring s.call.rx.nextChunk = card.chunk p := by
  have reflects := card.reflects_ringAfter s.written
  rw [← waits.ring] at reflects
  have current := reflects.current (p := p + exanicRxNumChunks) (by omega) (by omega)
  rwa [Nat.add_mod_right, ← waits.stands.slot, card.content_add] at current

/-- The first access loads the word, and moves the reader to the next chunk. -/
theorem Waits.loads : (s.read 16384).call.pc = .copy s.call.rx.nextChunk (card.chunk p).info 0 ∧
    (s.read 16384).call.rx = s.call.rx.advance ∧ (s.read 16384).ring = s.ring ∧
      (s.read 16384).written = s.written ∧ (s.read 16384).log = s.log ∧
        ((s.read 16384).torn || (s.read 16384).tears 16384) = false := by
  have chunk := waits.chunk written recent
  have lap : (s.ring s.call.rx.nextChunk).info.generation = s.call.rx.generation := by
    rw [chunk, waits.stands.lap]
    rfl
  have whole : s.tears 16384 = false := by simp [Sys.tears, waits.entry]
  have load : s.read 16384 = _ := Sys.read_goOn (Call.step_entry_accept waits.entry lap)
    (fun _ _ => by simp [Call.accept])
  have between : s.BetweenChunks := fun _ _ _ => by simp [waits.entry]
  have pc : (s.read 16384).call.pc = .copy s.call.rx.nextChunk (card.chunk p).info 0 := by
    rw [load, chunk]
    rfl
  have torn : ((s.read 16384).torn || (s.read 16384).tears 16384) = false := by
    rw [Sys.read_copy_tears between pc, load]
    simp [Sys.goOn, waits.whole, whole]
  refine ⟨pc, ?_, ?_, ?_, ?_, torn⟩ <;> rw [load] <;> rfl

/-- A call at a frame that the card has written. -/
theorem Waits.collects : Waits (p + 1) (s.readChunk 16384) ∧
    (s.readChunk 16384).written = s.written ∧
      (s.readChunk 16384).log = s.log ++ [collected p s.written] := by
  obtain ⟨pc, rx, ring, count, log, torn⟩ := waits.loads written recent
  obtain ⟨last, size, status, timestamp⟩ := card_info p
  have small : (card.frame p).payload.length ≤ 16384 := by
    rcases card_payload p with first | later
    · simp [first]
    · simp [later]
  have block : payloadBytes ((s.read 16384).ring s.call.rx.nextChunk).payload
      (card.chunk p).info.length = (card.frame p).payload := by
    rw [ring, waits.chunk written recent, card_payload_eq, ← card_last]
    rfl
  have copy : (s.read 16384).read 16384 = _ := Sys.read_finish
    ((Call.step_copy pc).trans (Call.processChunk_delivered last (by omega))) rfl
  have next : s.call.rx.advance.StandsAt card.stamp (p + 1 + exanicRxNumChunks) := by
    rw [Nat.add_right_comm]
    exact waits.stands.names.advance card.stamp_succ
  have both : s.readChunk 16384 = (s.read 16384).read 16384 := by rw [Sys.readChunk, pc]
  rw [both, copy]
  refine ⟨⟨?_, Sys.StandsAt.of_names ?_ ?_ ?_, rfl, rfl, timestamp⟩, count, ?_⟩
  · show (s.read 16384).ring = card.ringAfter (s.read 16384).written
    rw [ring, count, waits.ring]
  · show (s.read 16384).call.rx.StandsAt card.stamp (p + 1 + exanicRxNumChunks)
    rw [rx]
    exact next
  · show p + 1 ≤ (s.read 16384).written
    omega
  · show (s.read 16384).written ≤ p + 1 + 255 * exanicRxNumChunks
    omega
  · show (s.read 16384).log ++ [_] = _
    rw [log, torn, count, Nat.zero_add, size, Int.toNat_natCast]
    have data := Memory.front_copy 0 (s.read 16384).call.rxBuf (congrArg List.length block)
    rw [Nat.zero_add, block, Memory.front_zero, List.nil_append] at data
    rw [block, data, status]
    show _ ++ [Returned.mk _ _ (card.chunk p).info.timestamp _ _ _] = _
    rw [timestamp]
    rfl

end Collects

theorem Reaches.collects {p w : ℕ} {log : List Returned} (reaches : Reaches p w log s)
    (written : p < w) (recent : w ≤ p + exanicRxNumChunks) :
    Reaches (p + 1) w (log ++ [collected p w]) (s.readChunk 16384) := by
  obtain rfl := reaches.written
  obtain rfl := reaches.log
  obtain ⟨waits, count, log⟩ := reaches.waits.collects written recent
  exact ⟨reaches.run.tail .read, waits, count, log⟩

/-- A call of a reader that was lapped. -/
theorem Waits.overruns {p : ℕ} (waits : Waits p s) (passed : p + exanicRxNumChunks < s.written) :
    (s.readChunk 16384).call = { s.call with pc := .lapped } ∧
      (s.readChunk 16384).written = s.written ∧
      Waits s.written ((s.readChunk 16384).readChunk 16384) ∧
      ((s.readChunk 16384).readChunk 16384).written = s.written ∧
      ((s.readChunk 16384).readChunk 16384).log = s.log ++ [overrun s.written] := by
  obtain ⟨ne, ne_pred⟩ : (s.ring s.call.rx.nextChunk).info.generation ≠ s.call.rx.generation ∧
      (s.ring s.call.rx.nextChunk).info.generation ≠ s.call.rx.generation - 1 := by
    rcases waits.stands.look waits.ring with caught | recent | ⟨-, ne, ne_pred⟩
    · omega
    · omega
    · exact ⟨ne, ne_pred⟩
  have load : s.read 16384 = _ := Sys.read_goOn (Call.step_entry_lapped waits.entry ne ne_pred)
    (fun _ _ => by simp)
  have first : s.readChunk 16384 = s.read 16384 := by rw [Sys.readChunk, load]; rfl
  have pc : (s.read 16384).call.pc = .lapped := by rw [load]; rfl
  have scan : (s.read 16384).read 16384 = _ := Sys.read_finish (Call.step_lapped pc) rfl
  have second : (s.read 16384).readChunk 16384 = (s.read 16384).read 16384 := by
    rw [Sys.readChunk, scan]
    rfl
  have kept : (s.read 16384).ring = s.ring ∧ (s.read 16384).written = s.written ∧
      (s.read 16384).call.timestamp = s.call.timestamp ∧ (s.read 16384).log = s.log ∧
      ((s.read 16384).torn || (s.read 16384).tears 16384) = false := by
    rw [load]
    refine ⟨rfl, rfl, rfl, rfl, ?_⟩
    simp [Sys.goOn, Sys.tears, waits.whole, waits.entry]
  obtain ⟨ring, count, timestamp, log, torn⟩ := kept
  have reflects := card.reflects_ringAfter s.written
  rw [← waits.ring, ← ring] at reflects
  have start : card.start s.written = s.written := card_start _
  have later : s.written < card.start (s.written + 1) := by
    rw [card_start]
    omega
  have positive := exanicRxNumChunks_pos
  have names := exanicRxCatchup_position card.recycled_stamp card.stamp_succ reflects
    card.content_generation (by omega) (card.lastEofEntry start.le later) (s.read 16384).call.rx
  have place : card.start s.written + exanicRxNumChunks - 1 + 1 =
      s.written + exanicRxNumChunks := by omega
  rw [place] at names
  rw [first, second]
  refine ⟨by rw [load]; rfl, count, ?_⟩
  rw [scan]
  refine ⟨⟨?_, Sys.StandsAt.of_names names count.ge ?_, rfl, rfl, ?_⟩, count, ?_⟩
  · show (s.read 16384).ring = card.ringAfter (s.read 16384).written
    rw [ring, count, waits.ring]
  · show (s.read 16384).written ≤ s.written + 255 * exanicRxNumChunks
    omega
  · exact timestamp.trans waits.timestamp
  · show (s.read 16384).log ++ [_] = _
    rw [log, torn, count]
    show _ ++ [Returned.mk _ _ (s.read 16384).call.timestamp _ _ _] = _
    rw [timestamp, waits.timestamp]
    rfl

theorem Reaches.overruns {p w : ℕ} {log : List Returned} (reaches : Reaches p w log s)
    (passed : p + exanicRxNumChunks < w) :
    Reaches w w (log ++ [overrun w]) ((s.readChunk 16384).readChunk 16384) := by
  obtain rfl := reaches.written
  obtain rfl := reaches.log
  obtain ⟨-, -, waits, count, log⟩ := reaches.waits.overruns passed
  exact ⟨(reaches.run.tail .read).tail .read, waits, count, log⟩

theorem idle_reaches : Reaches 0 0 [] idle := ⟨.refl, idle_waits, rfl, rfl⟩

/-- Two frames are collected, the card goes round the ring, and the frame it writes next is
collected. -/
theorem wrap_reaches : ∃ t, Reaches (exanicRxNumChunks + 5) (exanicRxNumChunks + 5)
    [collected 0 2, collected 1 2, overrun (exanicRxNumChunks + 4),
      collected (exanicRxNumChunks + 4) (exanicRxNumChunks + 5)] t := by
  have many : 5 ≤ exanicRxNumChunks := by decide
  have first := (idle_reaches.writes 2 (by omega)).collects (by omega) (by omega)
  have second := first.collects (by omega) (by omega)
  have lapped := (second.writes (exanicRxNumChunks + 2) (by omega)).overruns (by omega)
  have third := (lapped.writes 1 (by omega)).collects (by omega) (by omega)
  rw [show 0 + 2 + (exanicRxNumChunks + 2) = exanicRxNumChunks + 4 by omega] at third
  exact ⟨_, third⟩

end Poles

/-- Four calls, with a lap of the card between the second and the third. -/
theorem receiveFrameEx_accounts_wrap : ∃ t : Sys,
    t.log = [Poles.collected 0 2, Poles.collected 1 2, Poles.overrun (exanicRxNumChunks + 4),
      Poles.collected (exanicRxNumChunks + 4) (exanicRxNumChunks + 5)] ∧
    (∃ last, Account Delivers Poles.card 16384 0 t.log last) ∧
      (∃ frames : List ℕ,
        List.Forall₂ (fun r i => Delivers r (Poles.card.frame i)) (deliveries t.log) frames ∧
          frames.Pairwise (· < ·) ∧ ∀ i ∈ frames, 0 ≤ i) ∧
      ∀ before calls after, t.log = before ++ calls ++ after → Unreported calls →
        ∃ i count, List.Forall₂ (fun r i => Delivers r (Poles.card.frame i)) (deliveries calls)
          (List.range' i count) := by
  obtain ⟨t, reaches⟩ := Poles.wrap_reaches
  exact ⟨t, reaches.log, receiveFrameEx_accounts Poles.idle_initial reaches.run⟩

end ExanicCapture.Rx
