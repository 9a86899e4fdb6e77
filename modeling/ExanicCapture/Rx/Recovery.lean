/-
# Rx.Recovery -- where a lapped reader goes on

The card does not stop while a lapped reader scans the ring.  `Feed.seen w` is
the ring as such a scan sees it: slot `i` as it was when the card had written
`w i` chunks, where `w` does not grow with `i`, since the slots are read from the
last to the first.  `scanRun_seen` says that this covers every interleaving of
the card's writes with the scan's reads.

* `Knows` is the invariant of the scan.  It needs nothing of the ring: an end of
  frame the scan settles for is the last one of the ring or lies behind a change
  of generation (`Settles`).
* `Settles.frameStart`: over `seen` this is enough for the entry behind it to
  begin a frame, a slot never written included.
* `catchup_restarts` is the result: every overrun a call reports leaves the
  reader on a frame boundary.
-/
import ExanicCapture.Rx.Delivery
import Mathlib.Logic.Relation
import Mathlib.Order.Monotone.Basic

namespace ExanicCapture.Rx

set_option autoImplicit false

open Theory.LapRing

/-! ## What any scan records -/

section AnyScan

variable (read : ℕ → RxChunkInfo)

/-- Slot `e` holds an end of frame and is one the scan may settle for. -/
structure Settles (e : ℕ) : Prop where
  inside : e < exanicRxNumChunks
  eof : (read e).length ≠ 0
  newest : (∀ i, e < i → i < exanicRxNumChunks → (read i).length = 0) ∨
    ∃ i, e ≤ i ∧ i < exanicRxNumChunks ∧
      (read i).generation ≠ (read (exanicRxNumChunks - 1)).generation

/-- What the scan knows once it has looked at the generations of the slots from
`k` on and at the lengths of those from `m` on. -/
structure Knows (k m : ℕ) (s : Scan) : Prop where
  unbroken : s.beforeBreak = false → k < exanicRxNumChunks →
    s.breakGen = (read (exanicRxNumChunks - 1)).generation
  broken : s.beforeBreak = true →
    ∃ i, k ≤ i ∧ i < exanicRxNumChunks ∧
      (read i).generation ≠ (read (exanicRxNumChunks - 1)).generation
  inside : s.breakChunk < exanicRxNumChunks
  found : s.eofFound = true →
    Settles read s.eofChunk ∧ s.eofGen = (read s.eofChunk).generation
  fresh : s.eofFound = false → ∀ i, m ≤ i → i < exanicRxNumChunks → (read i).length = 0

variable {read} {k m : ℕ} {s : Scan}

theorem Knows.init : Knows read exanicRxNumChunks exanicRxNumChunks Scan.init where
  unbroken := fun _ inside => absurd inside (lt_irrefl _)
  broken := fun before => nomatch before
  inside := exanicRxNumChunks_pos
  found := fun found => Bool.noConfusion found
  fresh := fun _ _ low high => absurd high (not_lt.2 low)

theorem Knows.atBreak (knows : Knows read (k + 1) m s) (inside : k < exanicRxNumChunks) :
    Knows read k m (s.atBreak k (read k)) := by
  have broken : s.beforeBreak = true → ∃ i, k ≤ i ∧ i < exanicRxNumChunks ∧
      (read i).generation ≠ (read (exanicRxNumChunks - 1)).generation := by
    intro before
    obtain ⟨i, low, high, differs⟩ := knows.broken before
    exact ⟨i, by omega, high, differs⟩
  by_cases last : k = exanicRxNumChunks - 1
  · rw [Scan.atBreak, if_pos last]
    exact ⟨fun _ _ => by rw [last], broken, by simp only; omega, knows.found, knows.fresh⟩
  · rw [Scan.atBreak, if_neg last]
    by_cases changed : (read k).generation ≠ s.breakGen
    · rw [if_pos changed]
      refine ⟨fun same => Bool.noConfusion same, fun _ => ?_, inside, knows.found, knows.fresh⟩
      cases before : s.beforeBreak with
      | true => exact broken before
      | false =>
          -- the first break: what it differs from is still the last slot's generation
          refine ⟨k, le_rfl, inside, ?_⟩
          rw [← knows.unbroken before (by omega)]
          exact changed
    · rw [if_neg changed]
      exact ⟨fun same _ => knows.unbroken same (by omega), broken, knows.inside, knows.found,
        knows.fresh⟩

/-- A slot without an end of frame. -/
theorem Knows.pass (knows : Knows read k (m + 1) s) (more : (read m).length = 0) :
    Knows read k m s where
  unbroken := knows.unbroken
  broken := knows.broken
  inside := knows.inside
  found := knows.found
  fresh := by
    intro fresh i low high
    rcases Nat.eq_or_lt_of_le low with rfl | above
    · exact more
    · exact knows.fresh fresh i above high

/-- An end of frame when one is already recorded. -/
theorem Knows.keep (knows : Knows read k (m + 1) s) (found : s.eofFound = true) :
    Knows read k m s where
  unbroken := knows.unbroken
  broken := knows.broken
  inside := knows.inside
  found := knows.found
  fresh := fun fresh => absurd found (by rw [fresh]; exact Bool.false_ne_true)

theorem Knows.record (knows : Knows read k (k + 1) s) (inside : k < exanicRxNumChunks)
    (eof : (read k).length ≠ 0) (settled : s.beforeBreak = true ∨ s.eofFound = false) :
    Knows read k k (s.recordEof k (read k)) where
  unbroken := knows.unbroken
  broken := knows.broken
  inside := knows.inside
  found := by
    intro _
    refine ⟨⟨inside, eof, ?_⟩, rfl⟩
    rcases settled with before | fresh
    · exact Or.inr (knows.broken before)
    · exact Or.inl fun i above high => knows.fresh fresh i above high
  fresh := fun fresh => nomatch fresh

/-- A scan that stops knows no less of the slots it did not read. -/
theorem Knows.stop (knows : Knows read k m s) (stopped : s.eofFound = true)
    (before : s.beforeBreak = true) : Knows read 0 0 s where
  unbroken := fun same => absurd before (by rw [same]; exact Bool.false_ne_true)
  broken := by
    intro before
    obtain ⟨i, -, high, differs⟩ := knows.broken before
    exact ⟨i, Nat.zero_le i, high, differs⟩
  inside := knows.inside
  found := knows.found
  fresh := fun fresh => absurd stopped (by rw [fresh]; exact Bool.false_ne_true)

theorem Knows.scan (inside : k ≤ exanicRxNumChunks) (knows : Knows read k k s) :
    Knows read 0 0 (scan read k s) := by
  induction k generalizing s with
  | zero => exact knows
  | succ k ih =>
      have looked := knows.atBreak (by omega)
      rw [Rx.scan]
      by_cases eof : (read k).length ≠ 0
      · rw [if_pos eof]
        by_cases before : (s.atBreak k (read k)).beforeBreak = true
        · rw [if_pos before]
          exact (looked.record (by omega) eof (Or.inl before)).stop rfl before
        · rw [if_neg before]
          by_cases found : (s.atBreak k (read k)).eofFound = true
          · rw [if_pos found]
            exact ih (by omega) (looked.keep found)
          · rw [if_neg found]
            exact ih (by omega)
              (looked.record (by omega) eof (Or.inr (Bool.eq_false_iff.2 found)))
      · rw [if_neg eof]
        exact ih (by omega) (looked.pass (not_not.1 eof))

theorem scan_knows (read : ℕ → RxChunkInfo) :
    Knows read 0 0 (scan read exanicRxNumChunks Scan.init) :=
  Knows.init.scan le_rfl

end AnyScan

/-! ## The ring of a scan that the card does not wait for -/

namespace Feed

variable (feed : Feed)

/-- What a reader finds in slot `i` when it looks there after `w i` chunks. -/
def seen (w : ℕ → ℕ) (i : ℕ) : RxChunk :=
  feed.ringAfter (w i) i

variable {feed}

theorem NamedBy.of_stands {p : ℕ} {rx : ExanicRx}
    (stands : rx.StandsAt feed.stamp (p + exanicRxNumChunks)) : feed.NamedBy p rx := by
  obtain ⟨slot, lap⟩ := stands
  exact ⟨by rw [slot, Nat.add_mod_right], by rw [lap, feed.stamp_lap]⟩

theorem seen_holds (w : ℕ → ℕ) {i : ℕ} (inside : i < exanicRxNumChunks) :
    ∃ e, e % exanicRxNumChunks = i ∧ e < w i + exanicRxNumChunks ∧ w i ≤ e ∧
      feed.seen w i = feed.content e := by
  obtain ⟨e, slot, written, recent, holds⟩ :=
    (feed.reflects_ringAfter (w i)).holds (by omega) inside
  exact ⟨e, slot, written, by omega, holds⟩

/-- A slot that no chunk has reached yet. -/
theorem seen_unwritten {w : ℕ → ℕ} {i : ℕ} (inside : i < exanicRxNumChunks)
    (unwritten : w i ≤ i) : feed.seen w i = feed.initial i := by
  obtain ⟨e, slot, written, -, holds⟩ := feed.seen_holds w inside
  have same : e = i := by
    rcases Nat.lt_or_ge e exanicRxNumChunks with first | later
    · rwa [Nat.mod_eq_of_lt first] at slot
    · have := Nat.mod_lt (e - exanicRxNumChunks) exanicRxNumChunks_pos
      rw [Nat.mod_eq_sub_mod later, Nat.mod_eq_of_lt (by omega)] at slot
      omega
  rw [holds, same, feed.content_of_lt inside]

/-- Behind every end of frame the scan may settle for a frame begins. -/
theorem settles_frameStart {w : ℕ → ℕ} (later : Antitone w) {e : ℕ}
    (settles : Settles (fun i => (feed.seen w i).info) e) :
    ∃ p, feed.FrameStart p ∧ p ≤ w e ∧ w e < p + exanicRxNumChunks ∧
      (p + exanicRxNumChunks - 1) % exanicRxNumChunks = e ∧
      (feed.seen w e).info.generation =
        feed.stamp ((p + exanicRxNumChunks - 1) / exanicRxNumChunks) := by
  obtain ⟨x, slot, written, recent, holds⟩ := feed.seen_holds w settles.inside
  have eof := settles.eof
  rcases Nat.lt_or_ge x exanicRxNumChunks with unwritten | chunk
  · -- the slot was never written, so no slot above it was when the scan was there
    rw [Nat.mod_eq_of_lt unwritten] at slot
    subst slot
    have above : ∀ i, x ≤ i → i < exanicRxNumChunks → feed.seen w i = feed.initial i := by
      intro i low inside
      apply seen_unwritten inside
      have := later low
      omega
    have top : x = exanicRxNumChunks - 1 := by
      rcases settles.newest with none | ⟨i, low, inside, differs⟩
      · by_contra lower
        have := none (exanicRxNumChunks - 1) (by omega) (by omega)
        rw [above _ (by omega) (by omega)] at this
        exact feed.initial_length _ this
      · simp only [above i low inside, above (exanicRxNumChunks - 1) (by omega) (by omega),
          feed.initial_generation] at differs
        exact absurd rfl differs
    refine ⟨0, feed.frameStart_zero, Nat.zero_le _, by omega, ?_, ?_⟩
    · rw [Nat.zero_add, ← top, Nat.mod_eq_of_lt unwritten]
    · rw [above x le_rfl unwritten, feed.initial_generation, Nat.zero_add, ← top,
        Nat.div_eq_of_lt unwritten, Feed.stamp]
      exact (UInt8.add_zero _).symm
  · obtain ⟨k, rfl⟩ := Nat.exists_eq_add_of_le' chunk
    have place : k + 1 + exanicRxNumChunks - 1 = k + exanicRxNumChunks := by omega
    refine ⟨k + 1, feed.frameStart_succ.2 ?_, by omega, by omega, by rw [place, slot], ?_⟩
    · rwa [holds, feed.content_add] at eof
    · rw [holds, feed.content_generation, place]

/-- **The scan leaves the reader on a frame boundary, whatever the card does
meanwhile.** -/
theorem catchup_frameStart {w : ℕ → ℕ} (later : Antitone w)
    (eof : ∃ i, i < exanicRxNumChunks ∧ (feed.seen w i).info.length ≠ 0) (rx : ExanicRx) :
    ∃ p, feed.FrameStart p ∧
      feed.NamedBy p (exanicRxCatchup (fun i => (feed.seen w i).info) rx) ∧
      p ≤ w ((p + exanicRxNumChunks - 1) % exanicRxNumChunks) ∧
      w ((p + exanicRxNumChunks - 1) % exanicRxNumChunks) < p + exanicRxNumChunks := by
  have knows := scan_knows fun i => (feed.seen w i).info
  have found : (scan (fun i => (feed.seen w i).info) exanicRxNumChunks Scan.init).eofFound =
      true := by
    by_contra none
    obtain ⟨i, inside, eof⟩ := eof
    exact eof (knows.fresh (Bool.eq_false_iff.2 none) i (Nat.zero_le i) inside)
  obtain ⟨settles, generation⟩ := knows.found found
  obtain ⟨p, starts, written, recent, slot, stamped⟩ := settles_frameStart later settles
  refine ⟨p, starts, ?_, by rwa [slot], by rwa [slot]⟩
  apply NamedBy.of_stands
  have place : p + exanicRxNumChunks - 1 + 1 = p + exanicRxNumChunks := by
    have := exanicRxNumChunks_pos
    omega
  rw [← place]
  unfold exanicRxCatchup
  simp only [found, if_true]
  exact ExanicRx.StandsAt.advance feed.stamp_succ ⟨slot.symm, generation.trans stamped⟩

/-! ### A ring that does not change -/

/-- The last frame that begins before the card's write position. -/
structure LastStart (feed : Feed) (W p : ℕ) : Prop where
  reached : p ≤ W
  starts : feed.FrameStart p
  none_after : ∀ q, p < q → q ≤ W → ¬ feed.FrameStart q

theorem exists_lastStart (W : ℕ) : ∃ p, feed.LastStart W p := by
  classical
  induction W with
  | zero =>
      exact ⟨0, le_rfl, feed.frameStart_zero,
        fun q above below => absurd below (not_le.2 above)⟩
  | succ W ih =>
      by_cases here : feed.FrameStart (W + 1)
      · exact ⟨W + 1, le_rfl, here, fun q above below => absurd below (not_le.2 above)⟩
      · obtain ⟨p, reached, starts, none⟩ := ih
        refine ⟨p, by omega, starts, ?_⟩
        intro q above below
        rcases Nat.eq_or_lt_of_le below with rfl | lower
        · exact here
        · exact none q above (by omega)

/-- If the ring still holds an end of frame, the last one is right before the
last frame that begins. -/
theorem LastStart.lastEofEntry {W p : ℕ} (last : feed.LastStart W p)
    (eof : ∃ i, i < exanicRxNumChunks ∧ (feed.ringAfter W i).info.length ≠ 0) :
    LastEofEntry feed.content (W + exanicRxNumChunks) (p + exanicRxNumChunks - 1) := by
  have positive := exanicRxNumChunks_pos
  have close : W < p + exanicRxNumChunks := by
    obtain ⟨i, inside, eof⟩ := eof
    obtain ⟨x, slot, written, recent, holds⟩ :=
      (feed.reflects_ringAfter W).holds (by omega) inside
    rcases Nat.lt_or_ge x exanicRxNumChunks with unwritten | chunk
    · omega
    · obtain ⟨k, rfl⟩ := Nat.exists_eq_add_of_le' chunk
      rw [holds, feed.content_add] at eof
      by_contra far
      exact last.none_after (k + 1) (by omega) (by omega) (feed.frameStart_succ.2 eof)
  refine ⟨by have := last.reached; omega, by omega, ?_, ?_⟩
  · cases p with
    | zero =>
        rw [feed.content_of_lt (by omega)]
        exact feed.initial_length _
    | succ k =>
        have place : k + 1 + exanicRxNumChunks - 1 = k + exanicRxNumChunks := by omega
        rw [place, feed.content_add]
        exact feed.frameStart_succ.1 last.starts
  · intro e after before
    obtain ⟨k, rfl⟩ : ∃ k, e = k + exanicRxNumChunks := Nat.exists_eq_add_of_le' (by omega)
    rw [feed.content_add]
    by_contra eof
    exact last.none_after (k + 1) (by omega) (by omega) (feed.frameStart_succ.2 eof)

/-- **A ring that does not change: the reader is left behind the most recent end
of frame.** -/
theorem catchup_lastStart {W : ℕ}
    (eof : ∃ i, i < exanicRxNumChunks ∧ (feed.ringAfter W i).info.length ≠ 0) (rx : ExanicRx) :
    ∃ p, feed.LastStart W p ∧
      feed.NamedBy p (exanicRxCatchup (fun i => (feed.ringAfter W i).info) rx) := by
  obtain ⟨p, last⟩ := feed.exists_lastStart W
  have stands := exanicRxCatchup_position feed.recycled_stamp feed.stamp_succ
    (feed.reflects_ringAfter W) feed.content_generation (by omega) (last.lastEofEntry eof) rx
  have place : p + exanicRxNumChunks - 1 + 1 = p + exanicRxNumChunks := by
    have := exanicRxNumChunks_pos
    omega
  rw [place] at stands
  exact ⟨p, last, NamedBy.of_stands stands⟩

/-- **A ring without any end of frame: the reader is left where the card
writes.** -/
theorem catchup_writer {W : ℕ}
    (none : ∀ i, i < exanicRxNumChunks → (feed.ringAfter W i).info.length = 0) (rx : ExanicRx) :
    feed.NamedBy W (exanicRxCatchup (fun i => (feed.ringAfter W i).info) rx) := by
  obtain ⟨missing, chunk, generation⟩ := scan_newest feed.recycled_stamp
    (feed.reflects_ringAfter W) feed.content_generation (by omega) none
  apply NamedBy.of_stands
  have place : W + exanicRxNumChunks - 1 + 1 = W + exanicRxNumChunks := by
    have := exanicRxNumChunks_pos
    omega
  rw [← place]
  unfold exanicRxCatchup
  simp only [missing, Bool.false_eq_true, if_false]
  exact ExanicRx.StandsAt.advance feed.stamp_succ ⟨chunk, generation⟩

end Feed

/-- The scan leaves the reader inside the ring, whatever it read. -/
theorem catchup_inside (read : ℕ → RxChunkInfo) (rx : ExanicRx) :
    (exanicRxCatchup read rx).nextChunk < exanicRxNumChunks := by
  have knows := scan_knows read
  have advanced : ∀ rx : ExanicRx, rx.nextChunk < exanicRxNumChunks →
      rx.advance.nextChunk < exanicRxNumChunks := by
    intro rx inside
    unfold ExanicRx.advance
    split
    · exact exanicRxNumChunks_pos
    · show rx.nextChunk + 1 < exanicRxNumChunks
      omega
  unfold exanicRxCatchup
  apply advanced
  split
  · rename_i found
    exact (knows.found found).1.inside
  · exact knows.inside

/-! ## The scan and the card, interleaved -/

/-- One round of the loop: the locals after it, and whether the loop is left. -/
def Scan.visit (s : Scan) (chunk : ℕ) (info : RxChunkInfo) : Scan × Bool :=
  let s := s.atBreak chunk info
  if info.length ≠ 0 then
    if s.beforeBreak then (s.recordEof chunk info, true)
    else if s.eofFound then (s, false)
    else (s.recordEof chunk info, false)
  else (s, false)

theorem scan_visit (read : ℕ → RxChunkInfo) (k : ℕ) (s : Scan) :
    scan read (k + 1) s =
      if (s.visit k (read k)).2 then (s.visit k (read k)).1
      else scan read k (s.visit k (read k)).1 := by
  simp only [scan, Scan.visit]
  split
  · split
    · rfl
    · split <;> rfl
  · rfl

/-- A scan in progress: how far the card has written, how many slots are left to
read, the locals, and whether the loop was left early. -/
structure Scanning where
  written : ℕ
  left : ℕ
  locals : Scan
  stopped : Bool

/-- The card writes a chunk, or the scan reads one slot. -/
inductive ScanStep (feed : Feed) : Scanning → Scanning → Prop where
  | write {s : Scanning} : ScanStep feed s { s with written := s.written + 1 }
  | read {s : Scanning} {k : ℕ} (left : s.left = k + 1) (going : s.stopped = false) :
      ScanStep feed s
        { s with
          left := k
          locals := (s.locals.visit k (feed.ringAfter s.written k).info).1
          stopped := (s.locals.visit k (feed.ringAfter s.written k).info).2 }

/-- The rounds made so far are those of a scan of `seen w`, whatever the slots
still to be read turn out to hold. -/
structure Follows (feed : Feed) (w : ℕ → ℕ) (s : Scanning) : Prop where
  later : Antitone w
  bounded : ∀ i, w i ≤ s.written
  result : ∀ v : ℕ → ℕ, (∀ i, s.left ≤ i → v i = w i) →
    scan (fun i => (feed.seen v i).info) exanicRxNumChunks Scan.init =
      if s.stopped then s.locals
      else scan (fun i => (feed.seen v i).info) s.left s.locals

theorem Follows.step {feed : Feed} {w : ℕ → ℕ} {s t : Scanning} (follows : Follows feed w s)
    (step : ScanStep feed s t) : ∃ w', Follows feed w' t := by
  cases step with
  | write => exact ⟨w, follows.later, fun i => (follows.bounded i).trans (Nat.le_succ _),
      follows.result⟩
  | @read k left going =>
      refine ⟨fun i => if i ≤ k then s.written else w i, ?_, ?_, ?_⟩
      · intro i j below
        by_cases low : j ≤ k
        · simp [low, below.trans low]
        · by_cases low' : i ≤ k
          · simpa [low, low'] using follows.bounded j
          · simpa [low, low'] using follows.later below
      · intro i
        show (if i ≤ k then s.written else w i) ≤ s.written
        split
        · exact le_rfl
        · exact follows.bounded i
      · intro v agrees
        have here : v k = s.written := by simpa using agrees k le_rfl
        have word : (feed.seen v k).info = (feed.ringAfter s.written k).info := by
          rw [Feed.seen, here]
        rw [follows.result v, going, if_neg Bool.false_ne_true, left, scan_visit, word]
        · intro i high
          rw [left] at high
          have above : ¬ i ≤ k := by omega
          simpa [above] using agrees i (by show k ≤ i; omega)

/-- **Every interleaving of the card's writes with the scan's reads is a scan of
`seen w`.** -/
theorem scanRun_seen {feed : Feed} {s t : Scanning} (whole : s.left = exanicRxNumChunks)
    (fresh : s.locals = Scan.init) (going : s.stopped = false)
    (run : Relation.ReflTransGen (ScanStep feed) s t)
    (finished : t.stopped = true ∨ t.left = 0) :
    ∃ w, Antitone w ∧
      t.locals = scan (fun i => (feed.seen w i).info) exanicRxNumChunks Scan.init := by
  have follows : ∃ w, Follows feed w t := by
    clear finished
    induction run with
    | refl =>
        refine ⟨fun _ => s.written, antitone_const, fun _ => le_rfl, ?_⟩
        intro v _
        rw [going, whole, fresh, if_neg Bool.false_ne_true]
    | tail _ step ih =>
        obtain ⟨w, follows⟩ := ih
        exact follows.step step
  obtain ⟨w, follows⟩ := follows
  refine ⟨w, follows.later, ?_⟩
  rw [follows.result w fun _ _ => rfl]
  rcases finished with stopped | empty
  · rw [if_pos stopped]
  · rw [empty, scan, ite_self]

/-! ## What a reported overrun leaves behind -/

/-- Only the access that scans ends a call with an overrun. -/
theorem Call.lapped_of_swovfl {ring : ℕ → RxChunk} {rxBufSize : ℕ} {c : Call}
    (running : ∀ ret status, c.pc ≠ .done ret status) {ret : Int}
    (reported : (c.step ring rxBufSize).pc = .done ret exanicRxFrameSwovfl) :
    c.pc = .lapped := by
  have access := c.step_access ring rxBufSize
  generalize c.step ring rxBufSize = next at access reported
  cases access with
  | scans pc => exact pc
  | stays => exact absurd reported (running ret _)
  | accepts size => cases reported
  | laps => cases reported
  | more pc more => cases reported
  | idle pc => exact absurd (Pc.done.inj reported).2 (by decide)
  | truncated pc last tooLong => exact absurd (Pc.done.inj reported).2 (by decide)
  | delivered pc last fits => exact absurd (Pc.done.inj reported).2 (Call.hardware_status_ne _)

/-- The reader goes on at the beginning of a frame that the card had reached when
the scan was there; over a ring that does not change it is the last one, or the
card's own place when the ring holds no end of frame. -/
structure Restarted (feed : Feed) (w : ℕ → ℕ) (rx : ExanicRx) : Prop where
  inside : rx.nextChunk < exanicRxNumChunks
  onFrame : (∃ i, i < exanicRxNumChunks ∧ (feed.seen w i).info.length ≠ 0) →
    ∃ p, feed.FrameStart p ∧ feed.NamedBy p rx ∧
      p ≤ w ((p + exanicRxNumChunks - 1) % exanicRxNumChunks) ∧
      w ((p + exanicRxNumChunks - 1) % exanicRxNumChunks) < p + exanicRxNumChunks
  unchanging : ∀ W, (∀ i, w i = W) →
    ((∃ i, i < exanicRxNumChunks ∧ (feed.ringAfter W i).info.length ≠ 0) →
      ∃ p, feed.LastStart W p ∧ feed.NamedBy p rx) ∧
    ((∀ i, i < exanicRxNumChunks → (feed.ringAfter W i).info.length = 0) →
      feed.NamedBy W rx)

/-- **A call that reports an overrun has scanned the ring and restarts on a frame
boundary.** -/
theorem catchup_restarts (feed : Feed) {w : ℕ → ℕ} (later : Antitone w) (rxBufSize : ℕ)
    {c : Call} (running : ∀ ret status, c.pc ≠ .done ret status) {ret : Int}
    (reported : (c.step (feed.seen w) rxBufSize).pc = .done ret exanicRxFrameSwovfl) :
    (c.step (feed.seen w) rxBufSize).rx =
        exanicRxCatchup (fun i => (feed.seen w i).info) c.rx ∧
      Restarted feed w (c.step (feed.seen w) rxBufSize).rx := by
  have scanned : (c.step (feed.seen w) rxBufSize).rx =
      exanicRxCatchup (fun i => (feed.seen w i).info) c.rx := by
    rw [Call.step_lapped (Call.lapped_of_swovfl running reported)]
  refine ⟨scanned, ?_⟩
  rw [scanned]
  refine ⟨catchup_inside _ _, fun eof => Feed.catchup_frameStart later eof _, ?_⟩
  intro W still
  have ring : feed.seen w = feed.ringAfter W := by
    funext i
    rw [Feed.seen, still i]
  rw [ring]
  exact ⟨fun eof => Feed.catchup_lastStart eof _, fun none => Feed.catchup_writer none _⟩

/-- Over frames cut by the card, the reader goes on with the first chunk of one. -/
theorem catchup_restarts_frame (hw : Hardware) {w : ℕ → ℕ} (later : Antitone w)
    (eof : ∃ i, i < exanicRxNumChunks ∧ (hw.feed.seen w i).info.length ≠ 0) (rx : ExanicRx) :
    ∃ i, hw.feed.NamedBy (hw.start i) (exanicRxCatchup (fun i => (hw.feed.seen w i).info) rx) := by
  obtain ⟨p, starts, names, -⟩ := Feed.catchup_frameStart later eof rx
  obtain ⟨i, rfl⟩ := hw.frameStart_feed starts
  exact ⟨i, names⟩

/-! ## Poles: the card writes four chunks while a lapped reader scans -/

namespace Poles

/-- The card has gone once round the ring.  When the scan comes to the first slots it has
written four more chunks. -/
def scanned (i : ℕ) : ℕ := if i < 5 then exanicRxNumChunks + 7 else exanicRxNumChunks + 3

theorem scanned_antitone : Antitone scanned := by
  intro i j order
  unfold scanned
  split_ifs <;> omega

theorem feed_generation {k lap : ℕ} (here : k / exanicRxNumChunks = lap) :
    (card.feed.content (k + exanicRxNumChunks)).info.generation = UInt8.ofNat lap ∧
      (card.feed.content (k + exanicRxNumChunks)).info.length ≠ 0 := by
  rw [card.feed.content_add]
  refine ⟨?_, ?_⟩
  · show (0 : UInt8) + UInt8.ofNat (k / exanicRxNumChunks) = _
    rw [here, UInt8.zero_add]
  · show (card.stream.entry k).length ≠ 0
    rw [card_last]
    exact (card.frame k).last_ne_zero

/-- The scan finds the new lap in the first five slots. -/
theorem scanned_word {i : ℕ} (inside : i < exanicRxNumChunks) :
    (card.feed.seen scanned i).info.generation = (if i < 5 then 1 else 0) ∧
      (card.feed.seen scanned i).info.length ≠ 0 := by
  have slots : exanicRxNumChunks = 16384 := rfl
  obtain ⟨e, slot, below, above, holds⟩ := card.feed.seen_holds scanned inside
  rw [holds]
  unfold scanned at below above
  split at below
  next first =>
    rw [if_pos first] at above ⊢
    have place : e = exanicRxNumChunks + i + exanicRxNumChunks := by
      rw [slots] at slot below above ⊢
      omega
    rw [place]
    exact feed_generation (by rw [Nat.add_div_left _ (by omega), Nat.div_eq_of_lt inside])
  next later =>
    rw [if_neg later] at above ⊢
    have place : e = i + exanicRxNumChunks := by
      rw [slots] at slot below above ⊢
      omega
    rw [place]
    exact feed_generation (Nat.div_eq_of_lt inside)

/-- A reader that has collected the first frame is lapped by the time of its next call. -/
theorem behind_run : ∃ s, Relation.ReflTransGen (ChunkStep card 16384) idle s ∧
    s.written = exanicRxNumChunks + 3 ∧ s.call.pc = .lapped ∧ s.call.rx.nextChunk = 1 ∧
    s.call.rx.generation = 0 := by
  have many : 5 ≤ exanicRxNumChunks := by decide
  have first := (idle_reaches.writes 1 (by omega)).collects (by omega) (by omega)
  have behind := first.writes (exanicRxNumChunks + 2) (by omega)
  generalize Sys.writes card _ _ = s at behind
  obtain ⟨call, written, -⟩ := behind.waits.overruns (by rw [behind.written]; omega)
  refine ⟨_, behind.run.tail .read, ?_, congrArg Call.pc call, ?_, ?_⟩
  · rw [written, behind.written]
    omega
  · rw [call]
    exact behind.waits.stands.slot
  · rw [call]
    exact behind.waits.stands.lap

/-- The reader goes on behind the fifth chunk of the new lap, which the card wrote while the
scan was on its way. -/
theorem catchup_restarts_behind : ∃ s, Relation.ReflTransGen (ChunkStep card 16384) idle s ∧
    s.written = exanicRxNumChunks + 3 ∧ s.call.rx.nextChunk = 1 ∧ s.call.rx.generation = 0 ∧
    (s.call.step (card.feed.seen scanned) 16384).rx.nextChunk = 5 ∧
    (s.call.step (card.feed.seen scanned) 16384).rx.generation = 1 ∧
    Restarted card.feed scanned (s.call.step (card.feed.seen scanned) 16384).rx := by
  obtain ⟨s, run, written, pc, slot, lap⟩ := behind_run
  have running : ∀ ret status, s.call.pc ≠ .done ret status := by simp [pc]
  have reported : (s.call.step (card.feed.seen scanned) 16384).pc =
      .done (-1) exanicRxFrameSwovfl := by rw [Call.step_lapped pc]
  obtain ⟨scan, restarted⟩ := catchup_restarts card.feed scanned_antitone 16384 running reported
  have many : 5 < exanicRxNumChunks := by decide
  have old : ∀ i, 5 ≤ i → i < exanicRxNumChunks →
      (card.feed.seen scanned i).info.generation = 0 := by
    intro i later inside
    rw [(scanned_word inside).1, if_neg (Nat.not_lt.2 later)]
  have new : ∀ i, i < 5 → (card.feed.seen scanned i).info.generation = 1 := by
    intro i first
    rw [(scanned_word (first.trans many)).1, if_pos first]
  have last : LastEof (fun i => (card.feed.seen scanned i).info) 0 5 4 :=
    ⟨Nat.zero_le 4, Nat.lt_succ_self 4, (scanned_word (by omega)).2, fun i after before => by omega⟩
  obtain ⟨found, chunk, gen⟩ := scan_newer _ many (by decide) old new last
  have next : (exanicRxCatchup (fun i => (card.feed.seen scanned i).info) s.call.rx).nextChunk =
      5 ∧ (exanicRxCatchup (fun i => (card.feed.seen scanned i).info) s.call.rx).generation = 1 := by
    unfold exanicRxCatchup
    simp only [found, chunk, gen, new 4 (by omega), if_true]
    exact ⟨rfl, rfl⟩
  rw [← scan] at next
  exact ⟨s, run, written, slot, lap, next.1, next.2, restarted⟩

end Poles

end ExanicCapture.Rx
