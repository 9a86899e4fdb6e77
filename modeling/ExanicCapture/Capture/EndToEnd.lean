/-
# Capture.EndToEnd -- from the card to the save files

The receiver is described by the card and the interleaving of its accesses (`Rx.Step`),
the capture loop by what its calls returned (`Turn`).  Here the two are one program: the
turns get what the calls of a run return.

`EndToEnd` is what this program is for.  Its files, read in order, hold the frames of the
card, each once and in order, with their first `snaplen` bytes unless they were
overwritten during the copy; and if the last report counts no overflow and no other loss,
no frame is missing between the first one and the place of the reader.
-/
import ExanicCapture.Capture.Rotation
import ExanicCapture.Rx.Delivery

namespace ExanicCapture.Capture

set_option autoImplicit false

open Theory Save Rx

/-! ## The counters -/

/-- A call that found no frame is not counted. -/
def Turn.counted (t : Turn) : Bool := ¬ (t.rxSize < 0 ∧ t.status = exanicRxFrameOk)

def statuses (ts : List Turn) : List ℕ := (ts.filter Turn.counted).map Turn.status

/-- `rx_other`. -/
def isOther (status : ℕ) : Bool :=
  status ≠ exanicRxFrameOk ∧ status ≠ exanicRxFrameCorrupt ∧ status ≠ exanicRxFrameAborted ∧
    status ≠ exanicRxFrameHwovfl ∧ status ≠ exanicRxFrameSwovfl

theorem Counters.update_swovfl (c : Counters) (status : ℕ) :
    (c.update status).swovfl = if status = exanicRxFrameSwovfl then c.swovfl + 1 else c.swovfl := by
  unfold Counters.update
  split_ifs <;> first | rfl | (subst status; contradiction)

theorem Counters.update_other (c : Counters) (status : ℕ) :
    (c.update status).other = if isOther status then c.other + 1 else c.other := by
  unfold Counters.update
  split_ifs <;> simp_all [isOther]

/-- A counter that is stepped by some statuses counts them, as long as it does not wrap. -/
theorem foldl_counter (counter : Counters → UInt64) (p : ℕ → Bool)
    (steps : ∀ c status, counter (c.update status) = if p status then counter c + 1 else counter c)
    (ss : List ℕ) (c : Counters) (few : (counter c).toNat + ss.length < 2 ^ 64) :
    (counter (ss.foldl Counters.update c)).toNat = (counter c).toNat + ss.countP p := by
  induction ss generalizing c with
  | nil => rfl
  | cons status ss ih =>
      rw [List.length_cons] at few
      have stepped : (counter (c.update status)).toNat =
          (counter c).toNat + if p status then 1 else 0 := by
        rw [steps]
        split
        · rw [UInt64.toNat_add]
          exact Nat.mod_eq_of_lt (by show (counter c).toNat + 1 < 2 ^ 64; omega)
        · rfl
      have short : (counter (c.update status)).toNat + ss.length < 2 ^ 64 := by
        rw [stepped]
        split <;> omega
      rw [List.foldl_cons, ih _ short, stepped, List.countP_cons]
      omega

section

variable (host : ByteOrder) {o : Options} {t : Turn} {st : State}

theorem rotateIfDue_counters : (rotateIfDue host o t st).state.counters = st.counters := by
  have rotates : (rotateFile host o o.name t.rotate st).state.counters = st.counters := by
    unfold rotateFile
    dsimp only
    split_ifs <;> rfl
  unfold rotateIfDue
  split
  · dsimp only
    split <;> exact rotates
  · rfl

theorem logFrame_counters : (logFrame host o t st).state.counters = st.counters := by
  unfold logFrame
  dsimp only
  split
  · exact rotateIfDue_counters host
  · exact rotateIfDue_counters host

theorem turn_counters (goes : (turn host o t st).ok = true) :
    (turn host o t st).state.counters =
      if t.counted then st.counters.update t.status else st.counters := by
  unfold turn at goes ⊢
  by_cases idle : t.rxSize < 0 ∧ t.status = exanicRxFrameOk
  · have uncounted : t.counted = false := decide_eq_false (not_not_intro idle)
    rw [if_pos idle, uncounted]
    rfl
  · rw [if_neg idle] at goes ⊢
    have counted : t.counted = true := decide_eq_true idle
    dsimp only at goes ⊢
    rw [if_pos goes, if_pos counted]
    split
    · rfl
    · split
      · rw [logFrame_counters]
      · rfl

theorem capture_counters {ts : List Turn} (goes : (capture host o st ts).ok = true) :
    (capture host o st ts).state.counters = (statuses ts).foldl Counters.update st.counters := by
  induction ts generalizing st with
  | nil => rfl
  | cons t ts ih =>
      cases one : (turn host o t st).ok with
      | false =>
          rw [capture_stops host one, one] at goes
          cases goes
      | true =>
          rw [capture_goesOn host one] at goes ⊢
          rw [ih goes, turn_counters host one, statuses, statuses, List.filter_cons]
          split <;> rfl

end

/-! ## What the turns get -/

/-- The turn has got what the call returned. -/
structure Turn.Gets (t : Turn) (r : Returned) : Prop where
  rxSize : t.rxSize = r.ret
  status : t.status = r.frameStatus
  rxBuf : Memory.front r.ret.toNat t.rxBuf = r.data

def SavedRecord.length : SavedRecord → ℕ
  | .pcap r => r.len
  | .erf r => r.wlen

def SavedRecord.data : SavedRecord → List UInt8
  | .pcap r => r.data
  | .erf r => r.data

/-- The record has the length of what was returned, and its first bytes. -/
structure SavedRecord.Holds (o : Options) (record : SavedRecord) (r : Returned) : Prop where
  length : (record.length : Int) = r.ret
  data : record.data = r.data.take o.snaplen.toInt.toNat

section

variable {o : Options} {hw : Hardware} {first last : ℕ} {log : List Returned} {ts : List Turn}

theorem savedRecord_length (f : CapturedFrame) : (savedRecord o f).length = f.len := by
  unfold savedRecord
  split <;> rfl

theorem savedRecord_data (f : CapturedFrame) :
    (savedRecord o f).data = f.bytes.take o.snaplen.toInt.toNat := by
  unfold savedRecord
  split <;> rfl

theorem Turn.Gets.holds {t : Turn} {r : Returned} (gets : t.Gets r) {a : Arrival}
    (arrives : t.arrival o = some a) : (savedRecord o a.frame).Holds o r := by
  unfold Turn.arrival at arrives
  split at arrives
  next received =>
    cases arrives
    have size := gets.rxSize
    refine ⟨?_, ?_⟩
    · rw [savedRecord_length]
      show (t.rxSize.toNat : Int) = r.ret
      omega
    · rw [savedRecord_data, CapturedFrame.bytes, ← gets.rxBuf, ← size]
  next => cases arrives

/-- The frames of the turns are those of the calls. -/
theorem arrivals_hold (got : List.Forall₂ Turn.Gets ts log)
    (nonempty : ∀ r ∈ log, 0 ≤ r.ret → 0 < r.ret) :
    List.Forall₂ (SavedRecord.Holds o) ((arrivals o ts).map fun a => savedRecord o a.frame)
      (deliveries log) := by
  induction got with
  | nil => exact .nil
  | @cons t r ts log gets _ ih =>
      have ih := ih fun r member => nonempty r (List.mem_cons_of_mem _ member)
      have size := gets.rxSize
      have nonzero := nonempty r List.mem_cons_self
      rw [arrivals_cons]
      cases arrives : t.arrival o with
      | none =>
          have failed := arrival_none arrives
          rw [deliveries, List.filter_cons_of_neg (by simp; omega)]
          exact ih
      | some a =>
          have received := (arrival_some .little arrives).1
          rw [deliveries, List.filter_cons_of_pos (by simp; omega)]
          exact .cons (gets.holds arrives) ih

/-! ## What the calls report -/

/-- No frame is empty. -/
theorem payload_pos (f : Rx.Frame) : 0 < f.payload.length := by
  have last := f.last_ne_zero
  have length : f.last.length.toNat ≠ 0 := fun zero => last (UInt8.toNat_inj.1 zero)
  rw [Rx.Frame.payload_length]
  omega

/-- A call returns a frame, or nothing, or one of two losses. -/
theorem account_returns {rxBufSize : ℕ}
    (account : Account DeliversUnlessTorn hw rxBufSize first log last) :
    ∀ r ∈ log, 0 < r.ret ∨ r.ret = -1 ∧ (r.frameStatus = exanicRxFrameOk ∨
      r.frameStatus = exanicRxFrameTruncated ∨ r.frameStatus = exanicRxFrameSwovfl) := by
  induction account with
  | start => simp
  | @call log c next r before moves ih =>
      intro r' member
      rcases List.mem_append.1 member with old | new
      · exact ih r' old
      · obtain rfl := List.mem_singleton.1 new
        cases moves with
        | delivered fits delivers =>
            have size := delivers.ret
            have nonzero := payload_pos (hw.frame c)
            exact .inl (by omega)
        | idle ret status => exact .inr ⟨ret, .inl status⟩
        | truncated ret status => exact .inr ⟨ret, .inr (.inl status)⟩
        | overrun ret status => exact .inr ⟨ret, .inr (.inr status)⟩

/-- A clear report is one of calls that reported no loss. -/
theorem unreported_of_clear {rxBufSize : ℕ} (got : List.Forall₂ Turn.Gets ts log)
    (account : Account DeliversUnlessTorn hw rxBufSize first log last)
    (many : ts.length < 2 ^ 64)
    (swovfl : ((statuses ts).foldl Counters.update ⟨0, 0, 0, 0, 0, 0⟩).swovfl = 0)
    (other : ((statuses ts).foldl Counters.update ⟨0, 0, 0, 0, 0, 0⟩).other = 0) :
    Unreported log := by
  have few : (statuses ts).length < 2 ^ 64 := by
    rw [statuses, List.length_map]
    exact Nat.lt_of_le_of_lt (List.length_filter_le _ _) many
  have swovfls := foldl_counter Counters.swovfl
    (fun status => decide (status = exanicRxFrameSwovfl))
    (fun c status => by simpa using c.update_swovfl status) (statuses ts) ⟨0, 0, 0, 0, 0, 0⟩
    (by simpa using few)
  have others := foldl_counter Counters.other isOther Counters.update_other (statuses ts)
    ⟨0, 0, 0, 0, 0, 0⟩ (by simpa using few)
  rw [swovfl, UInt64.toNat_zero, Nat.zero_add, eq_comm, List.countP_eq_zero] at swovfls
  rw [other, UInt64.toNat_zero, Nat.zero_add, eq_comm, List.countP_eq_zero] at others
  intro r member failed
  obtain ⟨returned, status⟩ := (account_returns account r member).resolve_left (by omega)
  by_contra lost
  obtain ⟨t, there, gets⟩ : ∃ t ∈ ts, t.Gets r := by
    obtain ⟨k, inside, rfl⟩ := List.getElem_of_mem member
    have inside' : k < ts.length := got.length_eq ▸ inside
    exact ⟨ts[k], List.getElem_mem inside', List.Forall₂.get got inside' inside⟩
  have counted : t.counted = true :=
    decide_eq_true fun idle => lost (gets.status.symm.trans idle.2)
  have seen : t.status ∈ statuses ts :=
    List.mem_map_of_mem (List.mem_filter.2 ⟨there, counted⟩)
  have same := gets.status
  rcases status with ok | truncated | overrun
  · exact lost ok
  · refine others _ seen ?_
    rw [same, truncated]
    decide
  · refine swovfls _ seen ?_
    rw [same, overrun]
    decide

end

/-! ## The whole program -/

section

variable (host : ByteOrder) {o : Options} {env : Setup} {ts : List Turn}

theorem openSavefile_counters : (openSavefile host o env).state.counters = ⟨0, 0, 0, 0, 0, 0⟩ := by
  unfold openSavefile rotateFile
  dsimp only
  split
  · rfl
  · split_ifs <;> rfl

/-- The last report is that of the loop. -/
theorem report_leaving (opens : (openSavefile host o env).ok = true) (acquires : env.Acquires o)
    {c : Counters} (reported : .report c ∈ (main host o env ts).leaving) :
    c = (statuses ts).foldl Counters.update ⟨0, 0, 0, 0, 0, 0⟩ := by
  have does := main_captures host ts opens acquires
  rw [does] at reported
  dsimp only at reported
  have closes : ∀ st : State, .report c ∉ fcloseSavefp st := by
    intro st
    unfold fcloseSavefp
    split <;> simp
  split at reported
  next goes =>
    have counters := capture_counters host goes
    rw [openSavefile_counters] at counters
    rw [← counters]
    unfold leaveLoop at reported
    simp only [List.mem_append, List.mem_cons, Event.report.injEq, reduceCtorEq, List.not_mem_nil,
      or_false, closes] at reported
    refine reported.resolve_left fun unset => ?_
    split at unset
    · simp at unset
    · cases unset
  next =>
    unfold errApplyFilters errAcquireRx errAcquireHandle at reported
    simp [closes] at reported

end

/-- The card, the receiver and the files of a run. -/
structure EndToEnd (hw : Hardware) (host : ByteOrder) (o : Options) (env : Setup) (ts : List Turn)
    (log : List Returned) (first last : ℕ) (files : List (List SavedRecord)) (frames : List ℕ) :
    Prop where
  account : Account DeliversUnlessTorn hw rxBufSize first log last
  opened : openings (main host o env ts).trace = files.length
  decodes : ∀ k file, files[k]? = some file →
    readFile o.fileFormat (writtenTo (.file k) (main host o env ts).trace) = some file
  holds : List.Forall₂
    (fun record i => ∃ r ∈ log, DeliversUnlessTorn r (hw.frame i) ∧ record.Holds o r)
    files.flatten frames
  order : frames.Pairwise (· < ·)
  within : ∀ i ∈ frames, first ≤ i ∧ i < last
  clear : ∀ c, .report c ∈ (main host o env ts).leaving → c.swovfl = 0 → c.other = 0 →
    frames = List.range' first (last - first)

/-- What is related to deliveries is related to the frames that were delivered. -/
theorem forall₂_delivered {hw : Hardware} {o : Options} {log returns : List Returned}
    {records : List SavedRecord} {frames : List ℕ} (inside : ∀ r ∈ returns, r ∈ log)
    (held : List.Forall₂ (SavedRecord.Holds o) records returns)
    (delivered : List.Forall₂ (fun r i => DeliversUnlessTorn r (hw.frame i)) returns frames) :
    List.Forall₂ (fun record i => ∃ r ∈ log, DeliversUnlessTorn r (hw.frame i) ∧ record.Holds o r)
      records frames := by
  induction held generalizing frames with
  | nil =>
      cases delivered
      exact .nil
  | @cons record r records returns holds _ ih =>
      cases delivered with
      | cons delivers rest =>
          exact .cons ⟨r, inside r List.mem_cons_self, delivers, holds⟩
            (ih (fun r member => inside r (List.mem_cons_of_mem _ member)) rest)

/-- The frames of the deliveries, consecutive if no call reported a loss. -/
theorem account_frames {hw : Hardware} {first last : ℕ} {log : List Returned}
    (account : Account DeliversUnlessTorn hw rxBufSize first log last) :
    ∃ frames : List ℕ,
      List.Forall₂ (fun r i => DeliversUnlessTorn r (hw.frame i)) (deliveries log) frames ∧
        frames.Pairwise (· < ·) ∧ (∀ i ∈ frames, first ≤ i ∧ i < last) ∧
        (Unreported log → frames = List.range' first (last - first)) := by
  have returned : ∀ r f, DeliversUnlessTorn r f → 0 ≤ r.ret := fun r f delivers => by
    rw [delivers.ret]
    exact Int.natCast_nonneg _
  by_cases unreported : Unreported log
  · refine ⟨_, account.unreported returned unreported, List.pairwise_lt_range', ?_, fun _ => rfl⟩
    intro i member
    have := account.forward
    have := List.mem_range'_1.1 member
    omega
  · obtain ⟨frames, delivered, order, within⟩ := account.deliveries returned
    exact ⟨frames, delivered, order, within, fun clear => absurd clear unreported⟩

/-- **From the card to the files.** -/
theorem main_endToEnd {hw : Hardware} {first : ℕ} {s t : Sys} (initial : s.Initial hw first)
    (run : Relation.ReflTransGen (Step hw rxBufSize) s t) {host : ByteOrder} {o : Options}
    {env : Setup} {ts : List Turn} (got : List.Forall₂ Turn.Gets ts t.log) {name : CStr}
    (named : o.savefile = some name) (notStdout : name ≠ ['-']) (nonneg : 0 ≤ o.snaplen.toInt)
    (acquires : env.Acquires o) (succeeds : Rotates (main host o env ts).trace)
    (complete : Complete (main host o env ts).trace) (many : ts.length < 2 ^ 64) :
    ∃ last files frames, EndToEnd hw host o env ts t.log first last files frames := by
  obtain ⟨last, account, -⟩ := (inv_run initial run).place
  obtain ⟨lives, contents, -⟩ := main_recorded named notStdout acquires succeeds
  have nonempty : ∀ r ∈ t.log, 0 ≤ r.ret → 0 < r.ret := by
    intro r member nonneg
    rcases account_returns account r member with nonzero | ⟨negative, -⟩
    · exact nonzero
    · omega
  have held := arrivals_hold (o := o) got nonempty
  obtain ⟨frames, delivered, order, within, consecutive⟩ := account_frames account
  have items : (runWindows o env ts).flatMap Window.items = arrivals o ts := Windows.split_items _ _
  let files := (runWindows o env ts).map fun v => v.items.map fun a => savedRecord o a.frame
  have flattened : files.flatten = (arrivals o ts).map fun a => savedRecord o a.frame := by
    rw [← items, List.map_flatMap]
    rfl
  refine ⟨last, files, frames, account, ?_, ?_, ?_, order, within, ?_⟩
  · rw [← openings_lifecycle, lives, openings_lives, List.length_map]
  · intro k file found
    rw [List.getElem?_map, Option.map_eq_some_iff] at found
    obtain ⟨v, there, rfl⟩ := found
    rw [complete.written_eq, contents k v there, readFile_fileBytes host o nonneg, List.map_map]
    rfl
  · rw [flattened]
    exact forall₂_delivered (fun r member => List.mem_of_mem_filter member) held delivered
  · intro c reported swovfl other
    have opening : Rotates (openSavefile host o env).events := by
      rw [← main_opening host ts]
      exact (rotates_append.1 (rotates_append.1 (rotates_append.1 succeeds).1).1).1
    have opens := (opening_recorded named notStdout opening).1
    rw [report_leaving host opens acquires reported] at swovfl other
    exact consecutive (unreported_of_clear got account many swovfl other)

/-! ## Poles: two files, and a lap of the card -/

namespace Poles

/-- What the loop gets from the four calls of `Rx.Poles.wrap_reaches`; the last one comes
when it is time for the second file. -/
def turns : List Turn :=
  [{ frame 3 with rxSize := 2, rxBuf := fun _ => 1, rxSize_le := by decide },
    { frame 4 with rxBuf := fun _ => 2 },
    { frame 5 with rxSize := -1, status := exanicRxFrameSwovfl, rxSize_le := by decide },
    { frame 12 with rxBuf := fun _ => 2 }]

/-- A turn that gets a frame of the card. -/
theorem gets_collected {p seen : ℕ} {t : Turn} (payload : List UInt8)
    (bytes : (Rx.Poles.card.frame p).payload = payload) (rxSize : t.rxSize = payload.length)
    (status : t.status = 0) (rxBuf : Memory.front payload.length t.rxBuf = payload) :
    t.Gets (Rx.Poles.collected p seen) where
  rxSize := by
    rw [rxSize, ← bytes]
    rfl
  status := status
  rxBuf := by
    show Memory.front (Int.toNat (Rx.Poles.card.frame p).payload.length) t.rxBuf =
      (Rx.Poles.card.frame p).payload
    rw [bytes, Int.toNat_natCast, rxBuf]

theorem turns_get : List.Forall₂ Turn.Gets turns
    [Rx.Poles.collected 0 2, Rx.Poles.collected 1 2, Rx.Poles.overrun (exanicRxNumChunks + 4),
      Rx.Poles.collected (exanicRxNumChunks + 4) (exanicRxNumChunks + 5)] := by
  have later : ∀ i, i ≠ 0 → (Rx.Poles.card.frame i).payload = [2] := fun i nonzero => by
    rw [Rx.Poles.card_frame_later nonzero]
    decide
  refine .cons ?_ (.cons ?_ (.cons ?_ (.cons ?_ .nil)))
  · exact gets_collected [1, 1] (by decide) rfl rfl rfl
  · exact gets_collected [2] (later 1 (by decide)) rfl rfl rfl
  · exact ⟨rfl, rfl, rfl⟩
  · exact gets_collected [2] (later _ (by omega)) rfl rfl rfl

end Poles

/-- Two frames in the first file, an overrun that the report counts, and the frame behind it
in the second file. -/
theorem main_endToEnd_two : ∃ t : Sys,
    t.log = [Rx.Poles.collected 0 2, Rx.Poles.collected 1 2,
      Rx.Poles.overrun (exanicRxNumChunks + 4),
      Rx.Poles.collected (exanicRxNumChunks + 4) (exanicRxNumChunks + 5)] ∧
    openings (main .little Poles.options Poles.setup Poles.turns).trace = 2 ∧
    .report { success := 3, corrupt := 0, aborted := 0, hwovfl := 0, swovfl := 1, other := 0 } ∈
      (main .little Poles.options Poles.setup Poles.turns).leaving ∧
    ∃ last files frames, EndToEnd Rx.Poles.card .little Poles.options Poles.setup Poles.turns t.log
      0 last files frames := by
  obtain ⟨t, reaches⟩ := Rx.Poles.wrap_reaches
  refine ⟨t, reaches.log, by decide, by decide, ?_⟩
  exact main_endToEnd Rx.Poles.idle_initial (chunkRun_steps reaches.run)
    (by rw [reaches.log]; exact Poles.turns_get) rfl (by decide) (by decide)
    ⟨rfl, rfl, fun _ => rfl⟩ (by decide) (by decide) (by decide)

end ExanicCapture.Capture
