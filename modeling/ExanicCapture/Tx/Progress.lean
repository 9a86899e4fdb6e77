/-
# Tx.Progress -- when a call that waits for the card goes on

"The maximum TX chunk size is chosen so that we don't end up waiting for a feedback that
was never requested."  A call waits in one of two loops.  In the first it runs out of
sequence numbers, and the newest request is always recent enough.  In the second it waits
for space, and there the choice of the maximum works as long as every new lap was started
for a chunk that was then let through (`Roomy`).

A request that is refused as too large may start a new lap as well.  Then the handle can
be `Stuck`: the newest request belongs to the lap before and ends in front of the space
that is needed.  `waits_forever_iff` says that this is exactly when a chunk of allowed
size waits forever, and `frame_completes` that a frame within the MTU never does before a request
was refused.
-/
import ExanicCapture.Tx.Safety

namespace ExanicCapture.Tx

set_option autoImplicit false

open Theory Theory.Memory

/-- The newest request belongs to an earlier lap and frees too little. -/
def ExanicTx.Stuck (tx : ExanicTx) (n : ℕ) : Prop :=
  tx.nextSeq - tx.rolloverSeq < tx.nextSeq - tx.requestSeq ∧ tx.offsetOf tx.requestSeq < n

instance (tx : ExanicTx) (n : ℕ) : Decidable (tx.Stuck n) := by
  unfold ExanicTx.Stuck
  infer_instance

/-- The call that waits for the card. -/
def Sys.waiting (s : Sys) : Option Request :=
  match s.pc with
  | .sequence q | .space q => some q
  | _ => none

/-- The card has served every command and every feedback has arrived. -/
structure Sys.Quiet (s : Sys) : Prop where
  commands : s.commands = []
  reports : s.reports = []

/-- "Return the largest allowed frame size for the TX buffer." -/
theorem mtu_fits {r : Region} {tx : ExanicTx} {a : Arena} {request : ℕ}
    (books : Books r tx a request) {q : Request} (raw : q.type = exanicTxTypeRaw) :
    q.size ≤ tx.exanicGetTxMtu ↔ q.chunkSize ≤ tx.exanicMaxTxChunkSize := by
  have positive := r.positive
  obtain ⟨pages, size⟩ := r.pages
  simp only [Rx.pageSize] at size
  have padding : exanicPayloadPaddingBytes exanicTxTypeRaw = 2 := rfl
  simp only [Request.chunkSize, Request.length, raw, padding, ExanicTx.exanicGetTxMtu,
    ExanicTx.exanicMaxTxChunkSize, books.bufferSize, sizeofTxChunk, feedbackInterval]
  omega

/-! ## One look -/

namespace Books

variable {r : Region} {tx : ExanicTx} {a : Arena} {q n : ℕ}

/-- The maximum is a multiple of the cache line. -/
theorem aligned_le (books : Books r tx a q) {size : ℕ} (fits : size ≤ tx.exanicMaxTxChunkSize) :
    cacheAlign size ≤ tx.exanicMaxTxChunkSize := by
  obtain ⟨pages, whole⟩ := r.pages
  simp only [Rx.pageSize] at whole
  refine cacheAlign_le ?_ fits
  simp only [ExanicTx.exanicMaxTxChunkSize, books.bufferSize, feedbackInterval]
  omega

theorem stuck_iff (books : Books r tx a q) : tx.Stuck n ↔ q < a.lap ∧ a.stop q < n := by
  have number := books.behind books.seen_le books.request_lt.le
  have request_lt := books.request_lt
  have lap_le := books.wf.lap_le
  have lap : (tx.nextSeq - tx.rolloverSeq).toNat = a.next - a.lap := by
    rw [books.nextSeq, books.rolloverSeq]
    exact Serial.toNat_sub books.wf.lap_le books.lap_close
  rw [ExanicTx.Stuck, UInt16.lt_iff_toNat_lt, books.requestSeq, number, lap,
    books.offsetOf books.seen_le books.request_lt]
  constructor
  · rintro ⟨earlier, short⟩
    exact ⟨by omega, short⟩
  · rintro ⟨earlier, short⟩
    exact ⟨by omega, short⟩

theorem seen_eq (books : Books r tx a q) (same : tx.feedbackSeq = tx.requestSeq) : a.seen = q := by
  have seen := books.behind le_rfl books.wf.seen_lt.le
  have request := books.behind books.seen_le books.request_lt.le
  rw [← books.requestSeq, ← same, books.feedbackSeq, seen] at request
  have seen_lt := books.wf.seen_lt
  have request_lt := books.request_lt
  omega

/-- The first loop ends once the newest request was answered. -/
theorem not_outOfSequenceNumbers (books : Books r tx a q)
    (same : tx.feedbackSeq = tx.requestSeq) : ¬ tx.outOfSequenceNumbers := by
  have recent := books.recent
  have long := r.le_queueLen
  rw [books.outOfSequenceNumbers_iff, books.seen_eq same]
  rw [← books.queueLen] at long
  omega

/-- So does the second, unless the handle is stuck. -/
theorem look_available (books : Books r tx a q) (modest : n ≤ tx.exanicMaxTxChunkSize)
    (same : tx.feedbackSeq = tx.requestSeq) (free : ¬ tx.Stuck n) :
    (tx.look n).2 = .available := by
  have seen := books.seen_eq same
  unfold ExanicTx.look
  by_cases reached : a.lap ≤ a.seen
  · rw [if_pos (books.reached_iff.2 reached)]
    by_cases fits : tx.nextOffset + n ≤ tx.bufferSize
    · rw [if_pos fits]
    · have full : a.size < a.cursor + n := by
        rw [books.size, ← books.nextOffset, ← books.bufferSize]
        exact Nat.lt_of_not_le fits
      have large := books.wrapAround_roomy reached full (Or.inr modest)
      rw [if_neg fits]
      simp only
      rw [(books.wrapAround reached).behindFeedback, if_pos]
      show 0 + n ≤ a.stop a.seen
      rw [seen]
      omega
  · have earlier : q < a.lap := by omega
    have start := (books.wrapped earlier).2
    rw [books.stuck_iff] at free
    rw [if_neg (mt books.reached_iff.1 reached)]
    simp only
    rw [books.behindFeedback, if_pos]
    rw [start, seen]
    omega

/-- A look that waits does not make the handle stuck. -/
theorem look_free (books : Books r tx a q) (modest : n ≤ tx.exanicMaxTxChunkSize)
    (free : ¬ tx.Stuck n) :
    (tx.look n).2 = .available ∨ (tx.look n).2 = .wait ∧ ¬ (tx.look n).1.Stuck n := by
  have allowed : ∀ b : ExanicTx, b.bufferSize = tx.bufferSize →
      b.behindFeedback n = .available ∨ b.behindFeedback n = .wait := by
    intro b size
    unfold ExanicTx.behindFeedback
    split
    · exact Or.inl rfl
    · rw [if_neg]
      · exact Or.inr rfl
      · rw [ExanicTx.exanicMaxTxChunkSize, size]
        exact Nat.not_lt.2 modest
  unfold ExanicTx.look
  by_cases reached : a.lap ≤ a.seen
  · rw [if_pos (books.reached_iff.2 reached)]
    by_cases fits : tx.nextOffset + n ≤ tx.bufferSize
    · rw [if_pos fits]
      exact Or.inl rfl
    · have full : a.size < a.cursor + n := by
        rw [books.size, ← books.nextOffset, ← books.bufferSize]
        exact Nat.lt_of_not_le fits
      have large := books.wrapAround_roomy reached full (Or.inr modest)
      rw [if_neg fits]
      refine (allowed tx.wrapAround rfl).imp_right fun wait => ⟨wait, ?_⟩
      rw [(books.wrapAround reached).stuck_iff]
      exact fun stuck => absurd stuck.2 (Nat.not_lt.2 (modest.trans large))
  · rw [if_neg (mt books.reached_iff.1 reached)]
    exact (allowed tx rfl).imp_right fun wait => ⟨wait, free⟩

/-- A stuck handle finds nothing, whatever the feedback. -/
theorem look_stuck (books : Books r tx a q) (modest : n ≤ tx.exanicMaxTxChunkSize)
    (stuck : tx.Stuck n) : tx.look n = (tx, .wait) := by
  obtain ⟨earlier, short⟩ := books.stuck_iff.1 stuck
  have seen := books.seen_le
  have start := (books.wrapped earlier).2
  have before : a.stop a.seen ≤ a.stop q := by
    rcases Nat.eq_or_lt_of_le seen with same | later
    · rw [same]
    · exact (books.wf.ordered _ _ le_rfl later books.request_lt (Or.inl earlier)).trans
        (books.wf.block _ seen books.request_lt)
  unfold ExanicTx.look
  rw [if_neg (mt books.reached_iff.1 (by omega)), books.behindFeedback, if_neg (by omega),
    if_neg (Nat.not_lt.2 modest)]

end Books

/-! ## The loops -/

section Loops

variable {r : Region} {s : Sys} {g : Shadow} {q : Request}

/-- Once the card is quiet, the newest feedback is the newest that was requested. -/
theorem Card.quiet (card : Card r s g) (books : Books r s.tx g.arena g.request)
    (quiet : s.Quiet) : g.shown = g.request := by
  have commands := card.commands
  have reports := card.reports
  rw [quiet.commands] at commands
  rw [quiet.reports] at reports
  have none := (List.map_eq_nil_iff.1 commands.symm)
  have served : g.arena.next - 1 - g.served = 0 := by
    simpa using congrArg List.length none
  have empty := List.map_eq_nil_iff.1 reports.symm
  have request_lt := books.request_lt
  rcases card.pending with here | later
  · rw [empty] at here
    exact (List.mem_singleton.1 here).symm
  · omega

theorem Inv.updateFeedback_quiet (inv : Inv r s g) (quiet : s.Quiet) :
    s.updateFeedback = { s with tx := { s.tx with feedbackSeq := s.tx.requestSeq } } := by
  rw [inv.updateFeedback_eq, inv.card.quiet inv.books quiet, inv.books.requestSeq]

/-- The call is past both loops. -/
structure Passed (s s' : Sys) : Prop where
  waiting : s'.waiting = none
  errors : s'.errors = s.errors

theorem passed_prepared (s : Sys) (q : Request) : Passed s (s.prepared q) := by
  unfold Sys.prepared
  by_cases warm : q.warm
  · simp only [warm, if_true]
    exact ⟨rfl, rfl⟩
  · by_cases begins : q.begins
    · simp only [warm, begins, if_true, Bool.false_eq_true, if_false]
      exact ⟨rfl, rfl⟩
    · simp only [warm, begins, Bool.false_eq_true, if_false]
      exact ⟨rfl, rfl⟩

/-- With the newest feedback at hand, the second loop ends at once. -/
theorem Inv.space_current (inv : Inv r s g) (pc : s.pc = .space q)
    (modest : cacheAlign q.chunkSize ≤ s.tx.exanicMaxTxChunkSize)
    (same : s.tx.feedbackSeq = s.tx.requestSeq) (free : ¬ s.tx.Stuck (cacheAlign q.chunkSize)) :
    Passed s s.host := by
  rw [Sys.host_space pc, Sys.lookForSpace, inv.books.look_available modest same free]
  exact { passed_prepared (s.looked q) q with }

/-- The second loop takes at most two turns. -/
theorem Inv.space_quiet (inv : Inv r s g) (quiet : s.Quiet) (pc : s.pc = .space q)
    (modest : cacheAlign q.chunkSize ≤ s.tx.exanicMaxTxChunkSize)
    (free : ¬ s.tx.Stuck (cacheAlign q.chunkSize)) :
    Passed s s.host ∨ Passed s s.host.host := by
  rcases inv.books.look_free modest free with found | ⟨found, free'⟩
  · left
    rw [Sys.host_space pc, Sys.lookForSpace, found]
    exact { passed_prepared (s.looked q) q with }
  · right
    obtain ⟨b, looked, -, -⟩ := inv.looked pc (by rw [found]; decide)
    obtain ⟨g', next⟩ := inv.host
    have same : (s.looked q).tx.bufferSize = s.tx.bufferSize :=
      looked.books.bufferSize.trans inv.books.bufferSize.symm
    have updated := looked.updateFeedback_quiet ⟨quiet.commands, quiet.reports⟩
    have here : s.host = (s.looked q).updateFeedback := by
      rw [Sys.host_space pc, Sys.lookForSpace, found]
    rw [here, updated] at next ⊢
    have size : ({ (s.looked q).tx with feedbackSeq := (s.looked q).tx.requestSeq } :
        ExanicTx).exanicMaxTxChunkSize = s.tx.exanicMaxTxChunkSize := by
      simp only [ExanicTx.exanicMaxTxChunkSize, same]
    have passed := next.space_current pc (modest.trans_eq size.symm) rfl free'
    exact ⟨passed.waiting, passed.errors⟩

/-- Both loops together take at most three. -/
theorem Inv.waiting_quiet (inv : Inv r s g) (quiet : s.Quiet) (waiting : s.waiting = some q)
    (modest : cacheAlign q.chunkSize ≤ s.tx.exanicMaxTxChunkSize)
    (free : ¬ s.tx.Stuck (cacheAlign q.chunkSize)) :
    ∃ k ≤ 3, Passed s (Sys.host^[k] s) := by
  cases pc : s.pc with
  | idle => simp only [Sys.waiting, pc, reduceCtorEq] at waiting
  | filling stores send => simp only [Sys.waiting, pc, reduceCtorEq] at waiting
  | space q' =>
      simp only [Sys.waiting, pc, Option.some.injEq] at waiting
      subst waiting
      rcases inv.space_quiet quiet pc modest free with one | two
      · exact ⟨1, by decide, one⟩
      · exact ⟨2, by decide, two⟩
  | sequence q' =>
      simp only [Sys.waiting, pc, Option.some.injEq] at waiting
      subst waiting
      have turn := Sys.host_sequence pc
      obtain ⟨g₁, first⟩ := inv.host
      by_cases out : s.tx.outOfSequenceNumbers
      · -- the newest feedback ends the first loop and, with it, the second one
        rw [if_pos out, inv.updateFeedback_quiet quiet] at turn
        have ended := first.books.not_outOfSequenceNumbers (by rw [turn])
        have pc₁ : s.host.pc = .sequence q' := by rw [turn]; exact pc
        have turn₁ := Sys.host_sequence pc₁
        rw [if_neg ended] at turn₁
        obtain ⟨g₂, second⟩ := first.host
        have passed := second.space_current (q := q') (by rw [turn₁])
          (by rw [turn₁, turn]; exact modest) (by rw [turn₁, turn])
          (by rw [turn₁, turn]; exact free)
        refine ⟨3, le_rfl, passed.waiting, passed.errors.trans ?_⟩
        rw [turn₁, turn]
      · rw [if_neg out] at turn
        rw [turn] at first
        have later := first.space_quiet (q := q') ⟨quiet.commands, quiet.reports⟩ rfl modest free
        rcases later with two | three
        · refine ⟨2, by decide, ?_⟩
          show Passed s s.host.host
          rw [turn]
          exact ⟨two.waiting, two.errors⟩
        · refine ⟨3, le_rfl, ?_⟩
          show Passed s s.host.host.host
          rw [turn]
          exact ⟨three.waiting, three.errors⟩

end Loops

/-! ## Runs -/

section Runs

variable {r : Region} {s : Sys} {q : Request}

/-- **Before any request was refused, a call for a frame within the MTU gets its chunk
within three turns, once the card is quiet.** -/
theorem frame_completes (reachable : Reachable r s) (quiet : s.Quiet)
    (waiting : s.waiting = some q) (raw : q.type = exanicTxTypeRaw)
    (fits : q.size ≤ s.tx.exanicGetTxMtu) (accepted : Error.tooLarge ∉ s.errors) :
    ∃ k ≤ 3, Passed s (Sys.host^[k] s) := by
  obtain ⟨g, inv⟩ := inv_run reachable
  have modest := inv.books.aligned_le ((mtu_fits inv.books raw).1 fits)
  refine inv.waiting_quiet quiet waiting modest ?_
  rw [inv.books.stuck_iff]
  rintro ⟨earlier, short⟩
  have := inv.roomy accepted earlier
  omega

/-- A fresh handle that is asked for a frame of 1000 bytes. -/
def asking : Sys := [Act.call (.beginFrame 1000)].foldl Sys.act (acquired defaultRegion)

theorem frame_completes_asking : ∃ k ≤ 3, Passed asking (Sys.host^[k] asking) :=
  frame_completes (q := .beginFrame 1000)
    ((acquired_reachable defaultRegion).acts [.call (.beginFrame 1000)])
    ⟨by decide +kernel, by decide +kernel⟩ (by decide +kernel) rfl (by decide +kernel)
    (by decide +kernel)

/-- The card can always get done; the program is left where it is. -/
theorem quiet_reachable (s : Sys) :
    ∃ s', Relation.ReflTransGen Step s s' ∧ s'.Quiet ∧ s'.tx = s.tx ∧ s'.pc = s.pc := by
  have report : ∀ reports (s : Sys), s.commands = [] → s.reports = reports →
      ∃ s', Relation.ReflTransGen Step s s' ∧ s'.Quiet ∧ s'.tx = s.tx ∧ s'.pc = s.pc := by
    intro reports
    induction reports with
    | nil => exact fun s commands none => ⟨s, .refl, ⟨commands, none⟩, rfl, rfl⟩
    | cons first reports ih =>
        intro s commands listed
        obtain ⟨slot, id⟩ := first
        obtain ⟨s', run, quiet, tx, pc⟩ := ih (s.report slot id reports) commands rfl
        exact ⟨s', .head (Step.report listed) run, quiet, tx, pc⟩
  have serve : ∀ commands (s : Sys), s.commands = commands →
      ∃ s', Relation.ReflTransGen Step s s' ∧ s'.Quiet ∧ s'.tx = s.tx ∧ s'.pc = s.pc := by
    intro commands
    induction commands with
    | nil => exact fun s none => report s.reports s none rfl
    | cons command commands ih =>
        intro s listed
        obtain ⟨s', run, quiet, tx, pc⟩ := ih (s.serve command commands) rfl
        exact ⟨s', .head (Step.serve listed) run, quiet, tx, pc⟩
  exact serve s.commands s rfl

/-- While the handle is stuck, no step lets the call go on. -/
theorem stuck_step {s' : Sys} (reachable : Reachable r s) (step : Step s s')
    (waiting : s.waiting = some q)
    (modest : cacheAlign q.chunkSize ≤ s.tx.exanicMaxTxChunkSize)
    (stuck : s.tx.Stuck (cacheAlign q.chunkSize)) :
    s'.waiting = some q ∧ s'.tx.exanicMaxTxChunkSize = s.tx.exanicMaxTxChunkSize ∧
      s'.tx.Stuck (cacheAlign q.chunkSize) := by
  obtain ⟨g, inv⟩ := inv_run reachable
  have busy : s.pc ≠ .idle := by
    intro idle
    simp only [Sys.waiting, idle, reduceCtorEq] at waiting
  cases step with
  | call idle => exact absurd idle busy
  | store idle => exact absurd idle busy
  | finish idle => exact absurd idle busy
  | abort idle => exact absurd idle busy
  | serve => exact ⟨waiting, rfl, stuck⟩
  | report => exact ⟨waiting, rfl, stuck⟩
  | others => exact ⟨waiting, rfl, stuck⟩
  | host =>
      cases pc : s.pc with
      | idle => exact absurd pc busy
      | filling stores send => simp only [Sys.waiting, pc, reduceCtorEq] at waiting
      | sequence q' =>
          simp only [Sys.waiting, pc, Option.some.injEq] at waiting
          subst waiting
          rw [Sys.host_sequence pc]
          split
          next =>
            rw [inv.updateFeedback_eq]
            exact ⟨by simp only [Sys.waiting, pc], rfl, stuck⟩
          next => exact ⟨rfl, rfl, stuck⟩
      | space q' =>
          simp only [Sys.waiting, pc, Option.some.injEq] at waiting
          subst waiting
          have look := inv.books.look_stuck modest stuck
          have same : s.looked q' = s := by rw [Sys.looked, look]
          rw [Sys.host_space pc, Sys.lookForSpace, look, same]
          simp only
          rw [inv.updateFeedback_eq]
          exact ⟨by simp only [Sys.waiting, pc], rfl, stuck⟩

/-- **A call of allowed size waits forever exactly when the handle is stuck**, whatever
the card and other handles do. -/
theorem waits_forever_iff (reachable : Reachable r s) (waiting : s.waiting = some q)
    (fits : q.chunkSize ≤ s.tx.exanicMaxTxChunkSize) :
    (∀ s', Relation.ReflTransGen Step s s' → s'.waiting = some q) ↔
      s.tx.Stuck (cacheAlign q.chunkSize) := by
  obtain ⟨g, inv⟩ := inv_run reachable
  have modest := inv.books.aligned_le fits
  constructor
  · intro forever
    by_contra free
    obtain ⟨s₁, caught, quiet, tx, pc⟩ := quiet_reachable s
    obtain ⟨g₁, inv₁⟩ := inv_run (reachable.run caught)
    have waiting₁ : s₁.waiting = some q := by
      rw [← waiting, Sys.waiting, Sys.waiting, pc]
    obtain ⟨k, -, passed⟩ := inv₁.waiting_quiet quiet waiting₁ (tx ▸ modest) (tx ▸ free)
    have still := forever _ (caught.trans (host_run k s₁))
    rw [passed.waiting] at still
    cases still
  · intro stuck s' run
    suffices kept : s'.waiting = some q ∧
        s'.tx.exanicMaxTxChunkSize = s.tx.exanicMaxTxChunkSize ∧
          s'.tx.Stuck (cacheAlign q.chunkSize) from kept.1
    induction run with
    | refl => exact ⟨waiting, rfl, stuck⟩
    | tail before step ih =>
        obtain ⟨waiting', same, stuck'⟩ := ih
        obtain ⟨next, size, stuck''⟩ :=
          stuck_step (reachable.run before) step waiting' (modest.trans_eq same.symm) stuck'
        exact ⟨next, size.trans same, stuck''⟩

/-- A frame of 40 bytes is sent seven times and all feedback arrives.  Then a frame of
4000 bytes is refused, and one of 400 bytes is asked for, well below the MTU of 1526. -/
def hangingRun : List Act :=
  List.flatten (List.replicate 7 [.call (.transmitFrame (List.replicate 40 0) false), .host 10]) ++
    List.replicate 7 .serve ++ List.replicate 2 .report ++
    [.call (.beginFrame 4000), .host 3, .call (.beginFrame 400), .host 2]

def hanging : Sys := hangingRun.foldl Sys.act (acquired defaultRegion)

/-- The frame of 400 bytes waits forever, and so does the caller. -/
theorem waits_forever_hanging :
    hanging.tx.Stuck (cacheAlign (Request.beginFrame 400).chunkSize) ∧
      ∀ s', Relation.ReflTransGen Step hanging s' → s'.waiting = some (.beginFrame 400) := by
  have stuck : hanging.tx.Stuck (cacheAlign (Request.beginFrame 400).chunkSize) := by
    decide +kernel
  exact ⟨stuck, (waits_forever_iff ((acquired_reachable defaultRegion).acts hangingRun)
    (by decide +kernel) (by decide +kernel)).2 stuck⟩

end Runs

end ExanicCapture.Tx
