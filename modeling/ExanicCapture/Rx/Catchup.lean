/-
# Rx.Catchup -- `__exanic_rx_catchup`

The scan that a lapped reader makes: backwards over the ring, one read of every
slot, looking for the most recent end-of-frame chunk.  `read i` is the metadata
word the scan loads from slot `i`; the slots are read once each, from the last
to the first, so nothing is lost by giving the loads as a function of the slot,
and a ring that changes during the scan is just another such function.

The scan knows two laps apart by the change of generation.  `scan_unbroken` and
`scan_beforeBreak` say what its two phases do; `exanicRxCatchup_position` reads
them at a ring that does not change: the reader is left right behind the last
end-of-frame entry the hardware wrote.
-/
import ExanicCapture.Rx.Chunk
import ExanicCapture.Theory.LapRing

namespace ExanicCapture.Rx

set_option autoImplicit false

/-- The local variables of the scan. -/
structure Scan where
  eofGen : UInt8
  breakGen : UInt8
  eofChunk : ℕ
  breakChunk : ℕ
  eofFound : Bool
  beforeBreak : Bool
deriving DecidableEq

namespace Scan

def init : Scan :=
  { eofGen := 0, breakGen := 0, eofChunk := 0, breakChunk := 0,
    eofFound := false, beforeBreak := false }

/-- The test for a break in generation number at slot `chunk`. -/
def atBreak (s : Scan) (chunk : ℕ) (info : RxChunkInfo) : Scan :=
  if chunk = exanicRxNumChunks - 1 then
    -- starting value assumes break is at the wrap-around
    { s with breakGen := info.generation, breakChunk := exanicRxNumChunks - 1 }
  else if info.generation ≠ s.breakGen then
    { s with beforeBreak := true, breakGen := info.generation, breakChunk := chunk }
  else s

def recordEof (s : Scan) (chunk : ℕ) (info : RxChunkInfo) : Scan :=
  { s with eofFound := true, eofGen := info.generation, eofChunk := chunk }

end Scan

/-- The loop over the slots below the given one, last slot first. -/
def scan (read : ℕ → RxChunkInfo) : ℕ → Scan → Scan
  | 0, s => s
  | chunk + 1, s =>
      let s := s.atBreak chunk (read chunk)
      if (read chunk).length ≠ 0 then
        if s.beforeBreak then s.recordEof chunk (read chunk)
        else if s.eofFound then scan read chunk s
        else scan read chunk (s.recordEof chunk (read chunk))
      else scan read chunk s

/-- `__exanic_rx_catchup`. -/
def exanicRxCatchup (read : ℕ → RxChunkInfo) (rx : ExanicRx) : ExanicRx :=
  let s := scan read exanicRxNumChunks Scan.init
  let rx :=
    if s.eofFound then
      { rx with
        sentinelChunk := s.eofChunk, sentinelChunkGeneration := s.eofGen.toUInt32,
        nextChunk := s.eofChunk, generation := s.eofGen }
    else
      { rx with
        sentinelChunk := s.breakChunk, sentinelChunkGeneration := s.breakGen.toUInt32,
        nextChunk := s.breakChunk, generation := s.breakGen }
  rx.advance

/-! ## The two phases of the scan -/

section Phases

variable (read : ℕ → RxChunkInfo)

/-- `e` is the last of the slots from `m` up to `k` that holds an end of frame
(or was never written). -/
def LastEof (m k e : ℕ) : Prop :=
  m ≤ e ∧ e < k ∧ (read e).length ≠ 0 ∧ ∀ i, e < i → i < k → (read i).length = 0

theorem exists_lastEof {m k : ℕ} (eof : ∃ i, m ≤ i ∧ i < k ∧ (read i).length ≠ 0) :
    ∃ e, LastEof read m k e := by
  induction k with
  | zero =>
      obtain ⟨i, -, high, -⟩ := eof
      omega
  | succ k ih =>
      by_cases here : m ≤ k ∧ (read k).length ≠ 0
      · exact ⟨k, here.1, by omega, here.2, fun i after before => by omega⟩
      · obtain ⟨i, low, high, nonzero⟩ := eof
        have other : i ≠ k := fun same => here (same ▸ ⟨low, nonzero⟩)
        obtain ⟨e, low', high', nonzero', none⟩ := ih ⟨i, low, by omega, nonzero⟩
        refine ⟨e, low', by omega, nonzero', ?_⟩
        intro i after before
        by_cases top : i = k
        · subst top
          exact not_not.1 fun eof => here ⟨by omega, eof⟩
        · exact none i after (by omega)

/-- Slots that show no break and no end of frame are passed over. -/
theorem scan_skip {m k : ℕ} {s : Scan} (order : m ≤ k)
    (unbroken : ∀ i, m ≤ i → i < k → s.atBreak i (read i) = s)
    (skipped : ∀ i, m ≤ i → i < k → (read i).length = 0) :
    scan read k s = scan read m s := by
  induction k, order using Nat.le_induction with
  | base => rfl
  | succ k order ih =>
      rw [scan, unbroken k order (by omega), if_neg (by simp [skipped k order (by omega)])]
      exact ih (fun i low high => unbroken i low (by omega))
        (fun i low high => skipped i low (by omega))

/-- Before the first break only the first end of frame met is recorded. -/
theorem scan_recorded {m k : ℕ} {s : Scan} (order : m ≤ k)
    (unbroken : ∀ i, m ≤ i → i < k → s.atBreak i (read i) = s)
    (same : s.beforeBreak = false) (found : s.eofFound = true) :
    scan read k s = scan read m s := by
  induction k, order using Nat.le_induction with
  | base => rfl
  | succ k order ih =>
      rw [scan, unbroken k order (by omega)]
      simp only [same, found, Bool.false_eq_true, if_false, if_true, ite_self]
      exact ih fun i low high => unbroken i low (by omega)

theorem atBreak_recordEof {s : Scan} {i : ℕ} {info : RxChunkInfo} (e : ℕ) (eof : RxChunkInfo)
    (unbroken : s.atBreak i info = s) :
    (s.recordEof e eof).atBreak i info = s.recordEof e eof := by
  unfold Scan.atBreak at unbroken ⊢
  split at unbroken
  · rename_i last
    have gen := congrArg Scan.breakGen unbroken
    have chunk := congrArg Scan.breakChunk unbroken
    simp only at gen chunk
    simp [last, Scan.recordEof, gen, chunk]
  · rename_i inner
    split at unbroken
    · rename_i changed
      exact absurd (congrArg Scan.breakGen unbroken) changed
    · rename_i equal
      rw [if_neg inner, if_neg (by simpa [Scan.recordEof] using equal)]

/-- Over slots that show no break the scan records the last end of frame. -/
theorem scan_unbroken {m k e : ℕ} {s : Scan}
    (unbroken : ∀ i, m ≤ i → i < k → s.atBreak i (read i) = s)
    (same : s.beforeBreak = false) (fresh : s.eofFound = false)
    (last : LastEof read m k e) :
    scan read k s = scan read m (s.recordEof e (read e)) := by
  obtain ⟨low, high, eof, none⟩ := last
  rw [scan_skip read high (fun i after before => unbroken i (by omega) before)
    (fun i after before => none i (by omega) before), scan, unbroken e low high, if_pos eof]
  simp only [same, fresh, Bool.false_eq_true, if_false]
  exact scan_recorded read low
    (fun i above below => atBreak_recordEof e _ (unbroken i above (by omega))) same rfl

theorem atBreak_idem (s : Scan) (i : ℕ) (info : RxChunkInfo) :
    (s.atBreak i info).atBreak i info = s.atBreak i info := by
  by_cases last : i = exanicRxNumChunks - 1
  · simp [Scan.atBreak, last]
  · by_cases changed : info.generation = s.breakGen <;> simp [Scan.atBreak, last, changed]

theorem scan_atBreak (k : ℕ) (s : Scan) :
    scan read (k + 1) (s.atBreak k (read k)) = scan read (k + 1) s := by
  rw [scan, scan, atBreak_idem]

theorem atBreak_eof (s : Scan) (i : ℕ) (info : RxChunkInfo) :
    (s.atBreak i info).eofFound = s.eofFound ∧ (s.atBreak i info).eofChunk = s.eofChunk ∧
      (s.atBreak i info).eofGen = s.eofGen := by
  unfold Scan.atBreak
  split
  · exact ⟨rfl, rfl, rfl⟩
  · split <;> exact ⟨rfl, rfl, rfl⟩

theorem atBreak_beforeBreak {s : Scan} (i : ℕ) (info : RxChunkInfo)
    (before : s.beforeBreak = true) : (s.atBreak i info).beforeBreak = true := by
  unfold Scan.atBreak
  split
  · exact before
  · split
    · rfl
    · exact before

/-- Once a break is passed, the first end of frame met ends the scan. -/
theorem scan_beforeBreak {k e : ℕ} {s : Scan} (before : s.beforeBreak = true)
    (last : LastEof read 0 k e) :
    (scan read k s).eofFound = true ∧ (scan read k s).eofChunk = e ∧
      (scan read k s).eofGen = (read e).generation := by
  induction k generalizing s with
  | zero => exact absurd last.2.1 (by omega)
  | succ k ih =>
      obtain ⟨low, high, eof, none⟩ := last
      have still := atBreak_beforeBreak k (read k) before
      rw [scan]
      by_cases here : e = k
      · subst here
        simp only [eof, still, ne_eq, not_false_eq_true, if_true]
        exact ⟨rfl, rfl, rfl⟩
      · rw [if_neg (by simp [none k (by omega) (by omega)])]
        exact ih still ⟨low, by omega, eof, fun i after below => none i after (by omega)⟩

/-- If no end of frame is left behind a break, the one found before stays. -/
theorem scan_no_eof {k : ℕ} {s : Scan} (none : ∀ i, i < k → (read i).length = 0) :
    (scan read k s).eofFound = s.eofFound ∧ (scan read k s).eofChunk = s.eofChunk ∧
      (scan read k s).eofGen = s.eofGen := by
  induction k generalizing s with
  | zero => exact ⟨rfl, rfl, rfl⟩
  | succ k ih =>
      rw [scan, if_neg (by simp [none k (by omega)])]
      obtain ⟨found, chunk, gen⟩ := ih (s := s.atBreak k (read k)) fun i below =>
        none i (by omega)
      obtain ⟨found', chunk', gen'⟩ := atBreak_eof s k (read k)
      exact ⟨found.trans found', chunk.trans chunk', gen.trans gen'⟩

/-! ### A ring that shows two laps

From slot `r` on the slots carry generation `old`, below it `new`. -/

variable {r : ℕ} {old new : UInt8}

/-- The state of the scan after it has looked at the generation of the last
slot. -/
def Scan.started (old : UInt8) : Scan :=
  { Scan.init with breakGen := old, breakChunk := exanicRxNumChunks - 1 }

theorem scan_started (last : (read (exanicRxNumChunks - 1)).generation = old) :
    scan read exanicRxNumChunks Scan.init = scan read exanicRxNumChunks (Scan.started old) := by
  have first : Scan.init.atBreak (exanicRxNumChunks - 1) (read (exanicRxNumChunks - 1)) =
      Scan.started old := by
    simp [Scan.atBreak, Scan.started, last]
  have whole : exanicRxNumChunks - 1 + 1 = exanicRxNumChunks := by
    have := exanicRxNumChunks_pos
    omega
  have := scan_atBreak read (exanicRxNumChunks - 1) Scan.init
  rw [first, whole] at this
  exact this.symm

theorem started_unbroken {i : ℕ} {info : RxChunkInfo} (same : info.generation = old) :
    (Scan.started old).atBreak i info = Scan.started old := by
  by_cases last : i = exanicRxNumChunks - 1 <;> simp [Scan.atBreak, Scan.started, last, same]

/-- The scan above the break ends with the break still ahead of it. -/
theorem scan_above (order : r ≤ exanicRxNumChunks)
    (above : ∀ i, r ≤ i → i < exanicRxNumChunks → (read i).generation = old) :
    ∃ s : Scan, scan read exanicRxNumChunks (Scan.started old) = scan read r s ∧
      s.beforeBreak = false ∧ s.breakGen = old := by
  have unbroken : ∀ i, r ≤ i → i < exanicRxNumChunks →
      (Scan.started old).atBreak i (read i) = Scan.started old :=
    fun i low high => started_unbroken (above i low high)
  by_cases eof : ∃ i, r ≤ i ∧ i < exanicRxNumChunks ∧ (read i).length ≠ 0
  · obtain ⟨e, last⟩ := exists_lastEof read eof
    exact ⟨_, scan_unbroken read unbroken rfl rfl last, rfl, rfl⟩
  · have none : ∀ i, r ≤ i → i < exanicRxNumChunks → (read i).length = 0 := fun i low high =>
      not_not.1 fun eof' => eof ⟨i, low, high, eof'⟩
    exact ⟨_, scan_skip read order unbroken none, rfl, rfl⟩

/-- An end of frame in the newer lap is found. -/
theorem scan_newer (order : r < exanicRxNumChunks) (different : new ≠ old)
    (above : ∀ i, r ≤ i → i < exanicRxNumChunks → (read i).generation = old)
    (below : ∀ i, i < r → (read i).generation = new) {e : ℕ} (last : LastEof read 0 r e) :
    let s := scan read exanicRxNumChunks Scan.init
    s.eofFound = true ∧ s.eofChunk = e ∧ s.eofGen = (read e).generation := by
  obtain ⟨s, reached, -, gen⟩ := scan_above read order.le above
  rw [scan_started read (above _ (by omega) (by omega)), reached]
  cases r with
  | zero => exact absurd last.2.1 (by omega)
  | succ r =>
      -- the first slot below the break is where the scan notices it
      have broken : (s.atBreak r (read r)).beforeBreak = true := by
        have changed : (read r).generation ≠ s.breakGen := by
          rw [below r (by omega), gen]
          exact different
        simp [Scan.atBreak, show r ≠ exanicRxNumChunks - 1 by omega, changed]
      rw [← scan_atBreak]
      exact scan_beforeBreak read broken last

/-- When the newer lap holds no end of frame, the last one of the older lap is
found. -/
theorem scan_older (order : r < exanicRxNumChunks)
    (above : ∀ i, r ≤ i → i < exanicRxNumChunks → (read i).generation = old)
    (none : ∀ i, i < r → (read i).length = 0) {e : ℕ}
    (last : LastEof read r exanicRxNumChunks e) :
    let s := scan read exanicRxNumChunks Scan.init
    s.eofFound = true ∧ s.eofChunk = e ∧ s.eofGen = (read e).generation := by
  rw [scan_started read (above _ (by omega) (by omega)),
    scan_unbroken read (fun i low high => started_unbroken (above i low high)) rfl rfl last]
  exact scan_no_eof read none

/-- When no slot holds an end of frame, the newest slot of the newer lap is
remembered, or the last slot if there is none. -/
theorem scan_break (order : r < exanicRxNumChunks) (different : new ≠ old)
    (above : ∀ i, r ≤ i → i < exanicRxNumChunks → (read i).generation = old)
    (below : ∀ i, i < r → (read i).generation = new)
    (none : ∀ i, i < exanicRxNumChunks → (read i).length = 0) :
    let s := scan read exanicRxNumChunks Scan.init
    s.eofFound = false ∧
      s.breakChunk = (if r = 0 then exanicRxNumChunks - 1 else r - 1) ∧
      s.breakGen = (if r = 0 then old else new) := by
  rw [scan_started read (above _ (by omega) (by omega)),
    scan_skip read order.le (fun i low high => started_unbroken (above i low high))
      (fun i _ high => none i high)]
  cases r with
  | zero => exact ⟨rfl, rfl, rfl⟩
  | succ r =>
      have broken : (Scan.started old).atBreak r (read r) =
          { Scan.started old with beforeBreak := true, breakGen := new, breakChunk := r } := by
        have inner : r ≠ exanicRxNumChunks - 1 := by omega
        simp [Scan.atBreak, Scan.started, inner, below r (by omega), different]
      have unbroken : ∀ i, i < r + 1 → ((Scan.started old).atBreak r (read r)).atBreak i (read i) =
          (Scan.started old).atBreak r (read r) := by
        intro i low
        have inner : i ≠ exanicRxNumChunks - 1 := by omega
        rw [broken, Scan.atBreak, if_neg inner, if_neg (by simp [below i low])]
      rw [← scan_atBreak, scan_skip read (Nat.zero_le _) (fun i _ low => unbroken i low)
        (fun i _ low => none i (by omega)), broken]
      exact ⟨rfl, by simp [scan], by simp [scan]⟩

end Phases

/-! ## The scan over a ring that does not change -/

/-- The handle names entry `p`: its slot, and the stamp of its lap. -/
def ExanicRx.StandsAt (stamp : ℕ → UInt8) (p : ℕ) (rx : ExanicRx) : Prop :=
  rx.nextChunk = p % exanicRxNumChunks ∧ rx.generation = stamp (p / exanicRxNumChunks)

section Unchanging

open Theory.LapRing

variable {content : ℕ → RxChunk} {stamp : ℕ → UInt8} {w : ℕ} {ring : ℕ → RxChunk}

theorem ExanicRx.StandsAt.advance (succ : ∀ l, stamp (l + 1) = stamp l + 1) {p : ℕ}
    {rx : ExanicRx} (stands : rx.StandsAt stamp p) : rx.advance.StandsAt stamp (p + 1) := by
  obtain ⟨slot, lap⟩ := stands
  have inside := Nat.mod_lt p exanicRxNumChunks_pos
  unfold ExanicRx.advance
  split
  · rename_i last
    rw [slot] at last
    exact ⟨(succ_slot_of_last last).symm, by rw [succ_lap_of_last last, succ, ← lap]⟩
  · rename_i inner
    rw [slot] at inner
    have inner : p % exanicRxNumChunks + 1 < exanicRxNumChunks := by omega
    exact ⟨by rw [succ_slot_of_inner inner, ← slot], by rw [succ_lap_of_inner inner, ← lap]⟩

/-- Entry `e` is the last end of frame among the entries the ring still holds. -/
structure LastEofEntry (content : ℕ → RxChunk) (w e : ℕ) : Prop where
  written : e < w
  recent : w ≤ e + exanicRxNumChunks
  eof : (content e).info.length ≠ 0
  none_after : ∀ k, e < k → k < w → (content k).info.length = 0

section Laps

variable (reflects : Reflects exanicRxNumChunks content w ring)
  (stamped : ∀ k, (content k).info.generation = stamp (k / exanicRxNumChunks))

include reflects stamped

theorem generation_above (full : exanicRxNumChunks ≤ w) {i : ℕ}
    (high : w % exanicRxNumChunks ≤ i) (inside : i < exanicRxNumChunks) :
    (ring i).info.generation = stamp (w / exanicRxNumChunks - 1) := by
  rw [reflects.above full inside high, stamped, lap_entry inside]

theorem generation_below {i : ℕ} (low : i < w % exanicRxNumChunks) :
    (ring i).info.generation = stamp (w / exanicRxNumChunks) := by
  rw [reflects.below exanicRxNumChunks_pos low, stamped,
    lap_entry (low.trans (Nat.mod_lt w exanicRxNumChunks_pos))]

end Laps

theorem stamp_changes (recycled : Recycled 256 stamp) (full : exanicRxNumChunks ≤ w) :
    stamp (w / exanicRxNumChunks) ≠ stamp (w / exanicRxNumChunks - 1) := by
  have lap : 1 ≤ w / exanicRxNumChunks := (Nat.one_le_div_iff exanicRxNumChunks_pos).2 full
  have := recycled.ne_of_close (a := w / exanicRxNumChunks - 1) one_pos (by omega)
  rwa [Nat.sub_add_cancel lap] at this

/-- The scan of an unchanging ring finds the last end of frame it holds. -/
theorem scan_finds (recycled : Recycled 256 stamp)
    (reflects : Reflects exanicRxNumChunks content w ring)
    (stamped : ∀ k, (content k).info.generation = stamp (k / exanicRxNumChunks))
    (full : exanicRxNumChunks ≤ w) {e : ℕ} (last : LastEofEntry content w e) :
    let s := scan (fun i => (ring i).info) exanicRxNumChunks Scan.init
    s.eofFound = true ∧ s.eofChunk = e % exanicRxNumChunks ∧
      s.eofGen = stamp (e / exanicRxNumChunks) := by
  have slots := Nat.mod_lt w exanicRxNumChunks_pos
  have lap : 1 ≤ w / exanicRxNumChunks := (Nat.one_le_div_iff exanicRxNumChunks_pos).2 full
  have above : ∀ i, w % exanicRxNumChunks ≤ i → i < exanicRxNumChunks →
      (ring i).info.generation = stamp (w / exanicRxNumChunks - 1) :=
    fun _ => generation_above reflects stamped full
  have below : ∀ i, i < w % exanicRxNumChunks →
      (ring i).info.generation = stamp (w / exanicRxNumChunks) :=
    fun _ => generation_below reflects stamped
  have different := stamp_changes recycled full
  have parts := Nat.div_add_mod' w exanicRxNumChunks
  have earlier : (w / exanicRxNumChunks - 1) * exanicRxNumChunks + exanicRxNumChunks =
      w / exanicRxNumChunks * exanicRxNumChunks := by
    rw [← Nat.succ_mul, Nat.succ_eq_add_one, Nat.sub_add_cancel lap]
  have found : (ring (e % exanicRxNumChunks)).info = (content e).info :=
    congrArg RxChunk.info (reflects e last.written last.recent)
  have gen : (ring (e % exanicRxNumChunks)).info.generation = stamp (e / exanicRxNumChunks) := by
    rw [found, stamped]
  have eof : (ring (e % exanicRxNumChunks)).info.length ≠ 0 := found ▸ last.eof
  rw [← gen]
  rcases Nat.lt_or_ge e (w / exanicRxNumChunks * exanicRxNumChunks) with older | newer
  · obtain ⟨i, rfl⟩ : ∃ i, e = (w / exanicRxNumChunks - 1) * exanicRxNumChunks + i :=
      Nat.exists_eq_add_of_le (by have := last.recent; omega)
    have recent := last.recent
    have inside : i < exanicRxNumChunks := by omega
    rw [slot_entry inside] at eof ⊢
    refine scan_older _ slots above (fun j low => ?_) ⟨by omega, inside, eof, fun j after high => ?_⟩
    · rw [reflects.below exanicRxNumChunks_pos low]
      exact last.none_after _ (by omega) (by omega)
    · show (ring j).info.length = 0
      rw [reflects.above full high (by omega)]
      exact last.none_after _ (by omega) (by omega)
  · obtain ⟨i, rfl⟩ := Nat.exists_eq_add_of_le newer
    have written := last.written
    have inside : i < exanicRxNumChunks := by omega
    rw [slot_entry inside] at eof ⊢
    refine scan_newer _ slots different above below ⟨by omega, by omega, eof, ?_⟩
    intro j after low
    show (ring j).info.length = 0
    rw [reflects.below exanicRxNumChunks_pos low]
    exact last.none_after _ (by omega) (by omega)

/-- **The catch-up leaves the reader right behind the last end of frame the ring
holds.** -/
theorem exanicRxCatchup_position (recycled : Recycled 256 stamp)
    (succ : ∀ l, stamp (l + 1) = stamp l + 1)
    (reflects : Reflects exanicRxNumChunks content w ring)
    (stamped : ∀ k, (content k).info.generation = stamp (k / exanicRxNumChunks))
    (full : exanicRxNumChunks ≤ w) {e : ℕ} (last : LastEofEntry content w e) (rx : ExanicRx) :
    (exanicRxCatchup (fun i => (ring i).info) rx).StandsAt stamp (e + 1) := by
  obtain ⟨found, chunk, gen⟩ := scan_finds recycled reflects stamped full last
  unfold exanicRxCatchup
  simp only [found, if_true]
  exact ExanicRx.StandsAt.advance succ ⟨chunk, gen⟩

/-- Without an end of frame the scan remembers the newest entry. -/
theorem scan_newest (recycled : Recycled 256 stamp)
    (reflects : Reflects exanicRxNumChunks content w ring)
    (stamped : ∀ k, (content k).info.generation = stamp (k / exanicRxNumChunks))
    (full : exanicRxNumChunks ≤ w)
    (none : ∀ i, i < exanicRxNumChunks → (ring i).info.length = 0) :
    let s := scan (fun i => (ring i).info) exanicRxNumChunks Scan.init
    s.eofFound = false ∧ s.breakChunk = (w - 1) % exanicRxNumChunks ∧
      s.breakGen = stamp ((w - 1) / exanicRxNumChunks) := by
  have slots := Nat.mod_lt w exanicRxNumChunks_pos
  have lap : 1 ≤ w / exanicRxNumChunks := (Nat.one_le_div_iff exanicRxNumChunks_pos).2 full
  have parts := Nat.div_add_mod' w exanicRxNumChunks
  have earlier : (w / exanicRxNumChunks - 1) * exanicRxNumChunks + exanicRxNumChunks =
      w / exanicRxNumChunks * exanicRxNumChunks := by
    rw [← Nat.succ_mul, Nat.succ_eq_add_one, Nat.sub_add_cancel lap]
  obtain ⟨missing, chunk, generation⟩ := scan_break (fun i => (ring i).info) slots
    (stamp_changes recycled full) (fun _ => generation_above reflects stamped full)
    (fun _ => generation_below reflects stamped) none
  by_cases wrap : w % exanicRxNumChunks = 0
  · -- the newest entry closed its lap
    have newest : w - 1 =
        (w / exanicRxNumChunks - 1) * exanicRxNumChunks + (exanicRxNumChunks - 1) := by
      omega
    rw [if_pos wrap] at chunk generation
    refine ⟨missing, ?_, ?_⟩
    · rw [chunk, newest, slot_entry (by omega)]
    · rw [generation, newest, lap_entry (by omega)]
  · have newest : w - 1 =
        w / exanicRxNumChunks * exanicRxNumChunks + (w % exanicRxNumChunks - 1) := by
      omega
    rw [if_neg wrap] at chunk generation
    refine ⟨missing, ?_, ?_⟩
    · rw [chunk, newest, slot_entry (by omega)]
    · rw [generation, newest, lap_entry (by omega)]

end Unchanging

end ExanicCapture.Rx
