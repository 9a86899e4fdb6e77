/-
# Tx.Books -- the counts behind the handle

The numbers of the handle are 16-bit tails of counts that never stop.  `Books` says
which: the handle keeps the books of an `Arena`, the ring of bytes whose blocks are
the chunks, and of the newest chunk sent with a feedback request.  One lemma says what
each operation of the handle does to them: a look at the space finds room or wraps
(`Books.look`), an update of the feedback frees blocks (`Books.free`), and a chunk
that is sent is placed (`Books.sent`).

The request is never far behind: within half the sequence numbers, and within
`FEEDBACK_INTERVAL` bytes of the cursor if it is in the same lap.  `Roomy` is what a
request of an earlier lap is good for: a chunk of the largest size that
`exanic_prepare_tx_chunk` waits for fits in front of it.
-/
import ExanicCapture.Tx.Buffer
import ExanicCapture.Theory.RingArena
import ExanicCapture.Theory.Serial

namespace ExanicCapture.Tx

set_option autoImplicit false

open Theory

/-- The handle keeps the books of an arena; `request` is the newest chunk that was sent
with a feedback request. -/
structure Books (r : Region) (tx : ExanicTx) (a : Arena) (request : ℕ) : Prop where
  wf : a.WellFormed
  dense : a.Dense 64
  size : a.size = r.size
  bufferSize : tx.bufferSize = r.size
  bufferOffset : tx.bufferOffset = r.offset
  feedbackSlot : tx.feedbackSlot = r.feedbackSlot
  queueLen : tx.queueLen = r.exanicTx.queueLen
  nextSeq : tx.nextSeq = .ofNat a.next
  feedbackSeq : tx.feedbackSeq = .ofNat a.seen
  rolloverSeq : tx.rolloverSeq = .ofNat a.lap
  nextOffset : tx.nextOffset = a.cursor
  window : a.next ≤ a.seen + tx.queueLen
  offsets : ∀ k, a.seen ≤ k → k < a.next → tx.feedbackOffsets (k % tx.queueLen) = a.stop k
  requestSeq : tx.requestSeq = .ofNat request
  seen_le : a.seen ≤ request
  request_lt : request < a.next
  recent : a.next ≤ request + tx.queueLen / 2 + 1
  wrapped : request < a.lap → a.lap = a.next ∧ a.cursor = 0
  near : a.lap ≤ request → a.cursor ≤ a.stop request + feedbackInterval

/-- A chunk of the largest size fits in front of a request of an earlier lap. -/
def Roomy (tx : ExanicTx) (a : Arena) (request : ℕ) : Prop :=
  request < a.lap → tx.exanicMaxTxChunkSize ≤ a.stop request

/-- The chunk of `n` bytes at the cursor asks for feedback, or can do without. -/
def Decided (tx : ExanicTx) (a : Arena) (request n : ℕ) : Prop :=
  tx.needFeedback = false →
    a.next ≤ request + tx.queueLen / 2 ∧ a.lap ≤ request ∧
      a.cursor + n ≤ a.stop request + feedbackInterval

/-- "queue_len must be a power of 2". -/
theorem Region.queueLen_pow (r : Region) :
    ∃ m, 3 ≤ m ∧ m ≤ 12 ∧ r.exanicTx.queueLen = 2 ^ m := by
  have positive := r.positive
  have size_le := r.size_le
  obtain ⟨pages, size⟩ := r.pages
  simp only [exanicTxRegionMaxNumPages, Rx.pageSize] at size_le size
  have low : 8 ≤ r.size / 512 := by omega
  have high : r.size / 512 ≤ 2 ^ 12 := by omega
  refine ⟨(r.size / 512).log2, ?_, ?_, roundDownPow2_eq (by simp only [exanicTxCmdFifoSizeDivisor]; omega)
    (by simp only [exanicTxCmdFifoSizeDivisor]; omega)⟩
  · exact (Nat.le_log2 (by omega)).2 low
  · have : (r.size / 512).log2 < 13 := (Nat.log2_lt (by omega)).2 (by omega)
    omega

theorem Region.queueLen_le (r : Region) : r.exanicTx.queueLen ≤ 2 ^ 12 := by
  obtain ⟨m, -, high, length⟩ := r.queueLen_pow
  rw [length]
  exact Nat.pow_le_pow_right (by decide) high

theorem Region.le_queueLen (r : Region) : 8 ≤ r.exanicTx.queueLen := by
  obtain ⟨m, low, -, length⟩ := r.queueLen_pow
  rw [length]
  exact Nat.pow_le_pow_right (show 0 < 2 by decide) low

theorem Decided.mono {tx : ExanicTx} {a : Arena} {q m n : ℕ} (decided : Decided tx a q n)
    (smaller : m ≤ n) : Decided tx a q m := by
  intro quiet
  obtain ⟨recent, reached, near⟩ := decided quiet
  exact ⟨recent, reached, (Nat.add_le_add_left smaller _).trans near⟩

namespace Books

variable {r : Region} {tx : ExanicTx} {a : Arena} {q : ℕ}

/-- A count of the window is known by its tail. -/
theorem behind (books : Books r tx a q) {k : ℕ} (after : a.seen ≤ k) (before : k ≤ a.next) :
    (tx.nextSeq - UInt16.ofNat k).toNat = a.next - k := by
  have window := books.window
  have := r.queueLen_le
  rw [books.nextSeq]
  exact Serial.toNat_sub before (by rw [books.queueLen] at window; omega)

theorem outOfSequenceNumbers_iff (books : Books r tx a q) :
    tx.outOfSequenceNumbers ↔ a.seen + tx.queueLen ≤ a.next := by
  have seen := books.wf.seen_lt
  rw [ExanicTx.outOfSequenceNumbers, books.feedbackSeq, books.behind le_rfl seen.le]
  omega

theorem lap_close (books : Books r tx a q) : a.next - a.lap < 2 ^ 16 := by
  have few := books.dense.few books.wf
  have size := r.size_le
  rw [books.size] at few
  simp only [exanicTxRegionMaxNumPages, Rx.pageSize] at size
  omega

/-- "Check if we have not wrapped around since feedback_seq". -/
theorem reached_iff (books : Books r tx a q) :
    tx.nextSeq - tx.feedbackSeq ≤ tx.nextSeq - tx.rolloverSeq ↔ a.lap ≤ a.seen := by
  have seen := books.wf.seen_lt
  have lap := books.wf.lap_le
  have rollover : (tx.nextSeq - tx.rolloverSeq).toNat = a.next - a.lap := by
    rw [books.nextSeq, books.rolloverSeq]
    exact Serial.toNat_sub lap books.lap_close
  rw [UInt16.le_iff_toNat_le, books.feedbackSeq, books.behind le_rfl seen.le, rollover]
  omega

theorem offsetOf (books : Books r tx a q) {k : ℕ} (after : a.seen ≤ k) (before : k < a.next) :
    tx.offsetOf (.ofNat k) = a.stop k := by
  obtain ⟨m, -, high, length⟩ := r.queueLen_pow
  have mask := Serial.toNat_and_mask (m := m) (by omega) k
  rw [← length, ← books.queueLen] at mask
  rw [ExanicTx.offsetOf, mask, books.offsets k after before]

/-- The slot of the newest feedback is in the window, so it is accepted. -/
theorem exanicUpdateTxFeedback (books : Books r tx a q) {k : ℕ} (later : a.seen ≤ k)
    (taken : k < a.next) :
    tx.exanicUpdateTxFeedback (.ofNat k) = ({ tx with feedbackSeq := .ofNat k }, .ofNat k, true) := by
  have window := books.window
  rw [ExanicTx.exanicUpdateTxFeedback, if_pos]
  rw [books.behind later taken.le]
  omega

theorem free (books : Books r tx a q) {k : ℕ} (later : a.seen ≤ k) (asked : k ≤ q) :
    Books r { tx with feedbackSeq := .ofNat k } (a.free k) q :=
  { books with
    wf := books.wf.free later (lt_of_le_of_lt asked books.request_lt)
    feedbackSeq := rfl
    seen_le := asked
    window := books.window.trans (Nat.add_le_add_right later _)
    offsets := fun j after => books.offsets j (later.trans after) }

theorem wrapAround (books : Books r tx a q) (reached : a.lap ≤ a.seen) :
    Books r tx.wrapAround a.wrap q :=
  { books with
    wf := books.wf.wrap reached
    dense := Arena.wrap_dense a 64
    rolloverSeq := books.nextSeq
    nextOffset := rfl
    wrapped := fun _ => ⟨rfl, rfl⟩
    near := fun reached => absurd books.request_lt (Nat.not_lt.2 reached) }

/-- What is found behind the feedback of an earlier lap. -/
theorem behindFeedback (books : Books r tx a q) (n : ℕ) :
    tx.behindFeedback n =
      if a.cursor + n ≤ a.stop a.seen then .available
      else if n > tx.exanicMaxTxChunkSize then .tooLarge else .wait := by
  rw [ExanicTx.behindFeedback, books.feedbackSeq, books.offsetOf le_rfl books.wf.seen_lt,
    books.nextOffset]

/-- A new lap is roomy, unless the chunk it was started for is refused. -/
theorem wrapAround_roomy (books : Books r tx a q) {n : ℕ} (reached : a.lap ≤ a.seen)
    (full : a.size < a.cursor + n) (accepted : n ≤ a.stop a.seen ∨ n ≤ tx.exanicMaxTxChunkSize) :
    tx.exanicMaxTxChunkSize ≤ a.stop q := by
  have near := books.near (reached.trans books.seen_le)
  have size := books.size.trans books.bufferSize.symm
  have seen : a.stop a.seen ≤ a.stop q := by
    rcases Nat.eq_or_lt_of_le books.seen_le with same | later
    · rw [same]
    · exact (books.wf.ordered _ _ le_rfl later books.request_lt (Or.inr reached)).trans
        (books.wf.block _ books.seen_le books.request_lt)
  simp only [ExanicTx.exanicMaxTxChunkSize, feedbackInterval] at accepted near ⊢
  omega

/-- One look either finds room or keeps the books. -/
theorem look (books : Books r tx a q) (n : ℕ) :
    ∃ b : Arena, (b = a ∨ b = a.wrap) ∧ Books r (tx.look n).1 b q ∧
      ((tx.look n).2 = .available → b.Room n) ∧
      ((tx.look n).2 ≠ .tooLarge → Roomy tx a q → Roomy (tx.look n).1 b q) := by
  unfold ExanicTx.look
  by_cases reached : a.lap ≤ a.seen
  · rw [if_pos (books.reached_iff.2 reached)]
    by_cases fits : tx.nextOffset + n ≤ tx.bufferSize
    · rw [if_pos fits]
      refine ⟨a, Or.inl rfl, books, fun _ => Or.inl ⟨reached, ?_⟩, fun _ roomy => roomy⟩
      rw [books.size, ← books.nextOffset, ← books.bufferSize]
      exact fits
    · rw [if_neg fits]
      have wrapped := books.wrapAround reached
      have full : a.size < a.cursor + n := by
        rw [books.size, ← books.nextOffset, ← books.bufferSize]
        exact Nat.lt_of_not_le fits
      have found := wrapped.behindFeedback n
      refine ⟨a.wrap, Or.inr rfl, wrapped, ?_, ?_⟩
      · intro available
        refine Or.inr ⟨books.wf.seen_lt, ?_⟩
        by_contra short
        rw [found, if_neg short] at available
        split at available <;> cases available
      · intro accepted _ _
        refine books.wrapAround_roomy reached full ?_
        by_cases short : a.wrap.cursor + n ≤ a.wrap.stop a.wrap.seen
        · exact Or.inl ((Nat.le_add_left _ _).trans short)
        · rw [found, if_neg short] at accepted
          by_contra large
          exact accepted (if_pos (Nat.lt_of_not_le fun small => large (Or.inr small)))
  · rw [if_neg (mt books.reached_iff.1 reached)]
    refine ⟨a, Or.inl rfl, books, ?_, fun _ roomy => roomy⟩
    intro available
    refine Or.inr ⟨Nat.lt_of_not_le reached, ?_⟩
    by_contra short
    rw [books.behindFeedback, if_neg short] at available
    split at available <;> cases available

/-- Whether a chunk asks for feedback. -/
theorem decided (books : Books r tx a q) {n : ℕ} (room : a.Room n) :
    Decided { tx with needFeedback := tx.asksFeedback n } a q n := by
  intro quiet
  have quiet : tx.asksFeedback n = false := quiet
  have number := books.behind books.seen_le books.request_lt.le
  have lap : (tx.nextSeq - tx.rolloverSeq).toNat = a.next - a.lap := by
    rw [books.nextSeq, books.rolloverSeq]
    exact Serial.toNat_sub books.wf.lap_le books.lap_close
  have fits := books.wf.room_le room
  have size := r.size_le
  rw [books.size] at fits
  simp only [exanicTxRegionMaxNumPages, Rx.pageSize] at size
  simp only [ExanicTx.asksFeedback, Bool.or_eq_false_iff, decide_eq_false_iff_not, not_lt,
    books.requestSeq, UInt16.lt_iff_toNat_lt, number, lap, books.nextOffset,
    books.offsetOf books.seen_le books.request_lt] at quiet
  obtain ⟨⟨close, lapped⟩, bytes⟩ := quiet
  have request_lt := books.request_lt
  have lap_le := books.wf.lap_le
  have reached : a.lap ≤ q := by omega
  have behind := books.wf.current q books.seen_le request_lt reached
  rw [sizeSub_of_le (by omega) (by omega)] at bytes
  exact ⟨by simp only; omega, reached, by omega⟩

/-- Feedback has been asked for in the lap of the chunk. -/
theorem lap_le_request (books : Books r tx a q) {n : ℕ} (decided : Decided tx a q n) :
    a.lap ≤ if tx.needFeedback then a.next else q := by
  cases asks : tx.needFeedback with
  | true =>
      rw [if_pos rfl]
      exact books.wf.lap_le
  | false =>
      rw [if_neg (by decide)]
      exact (decided asks).2.1

/-- "Update state". -/
theorem sent (books : Books r tx a q) {size : ℕ} (positive : 0 < size)
    (number : a.next < a.seen + tx.queueLen) (room : a.Room (cacheAlign size))
    (decided : Decided tx a q (cacheAlign size)) :
    Books r (tx.sent size) (a.place (cacheAlign size)) (if tx.needFeedback then a.next else q)
    where
  wf := books.wf.place room
  dense := books.dense.place books.wf.lap_le (unit_le_cacheAlign positive)
  size := books.size
  bufferSize := books.bufferSize
  bufferOffset := books.bufferOffset
  feedbackSlot := books.feedbackSlot
  queueLen := books.queueLen
  nextSeq := by
    show tx.nextSeq + 1 = _
    rw [books.nextSeq]
    exact Serial.ofNat_succ a.next
  feedbackSeq := books.feedbackSeq
  rolloverSeq := books.rolloverSeq
  nextOffset := congrArg (· + cacheAlign size) books.nextOffset
  window := number
  offsets := by
    intro k after before
    obtain ⟨m, -, high, length⟩ := r.queueLen_pow
    have mask := Serial.toNat_and_mask (m := m) (by omega) a.next
    rw [← length, ← books.queueLen] at mask
    show Function.update tx.feedbackOffsets (tx.nextSeq.toNat &&& (tx.queueLen - 1))
      (tx.nextOffset + cacheAlign size) (k % tx.queueLen) = _
    rw [books.nextSeq, mask]
    have after : a.seen ≤ k := after
    rcases Nat.lt_succ_iff_lt_or_eq.1 before with older | rfl
    · rw [Function.update_of_ne (Serial.slot_ne older (by omega)),
        Arena.WellFormed.place_stop_of_ne older.ne]
      exact books.offsets k after older
    · rw [Function.update_self, Arena.WellFormed.place_stop_next, books.nextOffset]
  requestSeq := by
    show (if tx.needFeedback then tx.nextSeq else tx.requestSeq) = _
    split
    · exact books.nextSeq
    · exact books.requestSeq
  seen_le := by
    split
    · exact books.wf.seen_lt.le
    · exact books.seen_le
  request_lt := by
    split
    · exact Nat.lt_succ_self _
    · exact Nat.lt_succ_of_lt books.request_lt
  recent := by
    show a.next + 1 ≤ _ + tx.queueLen / 2 + 1
    cases asks : tx.needFeedback with
    | true =>
        rw [if_pos rfl]
        omega
    | false =>
        rw [if_neg (by decide)]
        exact Nat.succ_le_succ (decided asks).1
  wrapped := fun earlier => absurd earlier (books.lap_le_request decided).not_gt
  near := by
    intro _
    show a.cursor + cacheAlign size ≤ _
    cases asks : tx.needFeedback with
    | true =>
        rw [if_pos rfl, Arena.WellFormed.place_stop_next]
        exact Nat.le_add_right _ _
    | false =>
        rw [if_neg (by decide), Arena.WellFormed.place_stop_of_ne books.request_lt.ne]
        exact (decided asks).2.2

end Books

/-- The handle that was just acquired. -/
theorem Region.books (r : Region) : Books r r.exanicTx (Arena.empty r.size) 0 where
  wf := Arena.empty_wellFormed r.size
  dense := Nat.le_refl 0
  size := rfl
  bufferSize := rfl
  bufferOffset := rfl
  feedbackSlot := rfl
  queueLen := rfl
  nextSeq := rfl
  feedbackSeq := rfl
  rolloverSeq := rfl
  nextOffset := rfl
  window := by
    have := r.le_queueLen
    show 1 ≤ 0 + _
    omega
  offsets := by
    intro k _ before
    obtain rfl : k = 0 := Nat.lt_one_iff.1 before
    rw [Nat.zero_mod]
    rfl
  requestSeq := rfl
  seen_le := le_rfl
  request_lt := Nat.one_pos
  recent := by
    show 1 ≤ 0 + _ / 2 + 1
    omega
  wrapped := fun _ => ⟨rfl, rfl⟩
  near := fun reached => absurd reached (Nat.not_succ_le_zero 0)

end ExanicCapture.Tx
