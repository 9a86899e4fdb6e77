/-
# Capture.Trace -- reading a run off its events, and what each turn does

`askedOf` and `writtenTo` are the bytes one stream was given and the bytes it
stored; `lifecycle` is the sequence of openings and closings.  The lemmas about
`rotateFile` and `turn` say once what each of them does, case by case; the results
about runs are derived from them.
-/
import ExanicCapture.Capture.SaveFile

namespace ExanicCapture.Capture

set_option autoImplicit false

open Theory Save Rx

/-! ## Projections of a trace -/

/-- What an event hands to `fwrite` on this stream. -/
@[simp] def Event.asked (fp : Stream) : Event → List UInt8
  | .fwrite q asked _ => if q = fp then asked else []
  | _ => []

/-- What an event stores in this stream. -/
@[simp] def Event.written (fp : Stream) : Event → List UInt8
  | .fwrite q _ stored => if q = fp then stored else []
  | _ => []

@[simp] def Event.opensOrCloses : Event → Bool
  | .fopen _ _ _ => true
  | .fclose _ => true
  | _ => false

def askedOf (fp : Stream) (es : List Event) : List UInt8 := es.flatMap (Event.asked fp)

def writtenTo (fp : Stream) (es : List Event) : List UInt8 := es.flatMap (Event.written fp)

/-- The openings and closings, in order. -/
def lifecycle (es : List Event) : List Event := es.filter Event.opensOrCloses

def Event.isOpening : Event → Bool
  | .fopen _ _ _ => true
  | _ => false

@[simp] def Event.isPrint : Event → Bool
  | .printf _ => true
  | _ => false

/-- The number of files a run opens. -/
def openings (es : List Event) : ℕ := es.countP Event.isOpening

/-- An `fwrite` that did not store all of its block. -/
def Event.isShortWrite : Event → Bool
  | .fwrite _ asked stored => decide (stored ≠ asked)
  | _ => false

@[simp] def Event.isRotateError : Event → Bool
  | .rotateError _ => true
  | _ => false

/-- Every `fwrite` stored all of its block. -/
def Complete (es : List Event) : Prop := ∀ e ∈ es, e.isShortWrite = false

/-- No `rotate_file` failed. -/
def Rotates (es : List Event) : Prop := ∀ e ∈ es, e.isRotateError = false

instance (es : List Event) : Decidable (Complete es) := List.decidableBAll _ _

instance (es : List Event) : Decidable (Rotates es) := List.decidableBAll _ _

section

variable (fp : Stream) (e : Event) (es fs : List Event)

@[simp] theorem askedOf_nil : askedOf fp [] = [] := rfl

@[simp] theorem askedOf_cons : askedOf fp (e :: es) = e.asked fp ++ askedOf fp es := rfl

@[simp] theorem askedOf_append : askedOf fp (es ++ fs) = askedOf fp es ++ askedOf fp fs :=
  List.flatMap_append

@[simp] theorem writtenTo_nil : writtenTo fp [] = [] := rfl

@[simp] theorem writtenTo_cons : writtenTo fp (e :: es) = e.written fp ++ writtenTo fp es := rfl

@[simp] theorem writtenTo_append : writtenTo fp (es ++ fs) = writtenTo fp es ++ writtenTo fp fs :=
  List.flatMap_append

@[simp] theorem lifecycle_nil : lifecycle [] = [] := rfl

@[simp] theorem lifecycle_append : lifecycle (es ++ fs) = lifecycle es ++ lifecycle fs :=
  List.filter_append ..

@[simp] theorem lifecycle_cons :
    lifecycle (e :: es) = if e.opensOrCloses then e :: lifecycle es else lifecycle es :=
  List.filter_cons ..

end

theorem openings_lifecycle (es : List Event) : openings (lifecycle es) = openings es := by
  rw [openings, lifecycle, List.countP_filter]
  apply List.countP_congr
  intro e _
  cases e <;> simp [Event.isOpening]

@[simp] theorem askedOf_fwrites (fp q : Stream) (writes : Writes) (blocks : List (List UInt8)) :
    askedOf fp (fwrites q writes blocks) = if q = fp then blocks.flatten else [] := by
  induction blocks generalizing writes with
  | nil => simp [fwrites]
  | cons block blocks ih =>
      rw [fwrites, askedOf_cons, ih]
      by_cases same : q = fp <;> simp [same]

@[simp] theorem lifecycle_fwrites (fp : Stream) (writes : Writes) (blocks : List (List UInt8)) :
    lifecycle (fwrites fp writes blocks) = [] := by
  induction blocks generalizing writes with
  | nil => rfl
  | cons block blocks ih => simp [fwrites, ih]

/-- Complete writes store what they are asked to. -/
theorem Complete.written_eq {es : List Event} (complete : Complete es) (fp : Stream) :
    writtenTo fp es = askedOf fp es := by
  apply List.flatMap_congr
  intro e member
  cases e with
  | fwrite q asked stored =>
      have whole : stored = asked := by simpa [Event.isShortWrite] using complete _ member
      simp [whole]
  | _ => rfl

@[simp] theorem rotates_nil : Rotates [] := fun _ member => by cases member

@[simp] theorem rotates_cons {e : Event} {es : List Event} :
    Rotates (e :: es) ↔ e.isRotateError = false ∧ Rotates es :=
  List.forall_mem_cons

@[simp] theorem rotates_append {es fs : List Event} :
    Rotates (es ++ fs) ↔ Rotates es ∧ Rotates fs :=
  List.forall_mem_append

@[simp] theorem rotates_fwrites (fp : Stream) (writes : Writes) (blocks : List (List UInt8)) :
    Rotates (fwrites fp writes blocks) := by
  induction blocks generalizing writes with
  | nil => exact rotates_nil
  | cons block blocks ih => exact rotates_cons.2 ⟨rfl, ih _⟩

theorem not_rotates {es : List Event} (error : RotateError) (member : .rotateError error ∈ es) :
    ¬ Rotates es :=
  fun rotates => absurd (rotates _ member) (by simp [Event.isRotateError])

/-! ## `rotate_file` -/

/-- `rotate_file` succeeds: the directory is there, the name fits, and the file can be
created. -/
def canOpen (o : Options) (savefile : CStr) (idx : Int32) (env : RotateEnv) : Bool :=
  ensureDir (outDir savefile o.repoDir) env &&
    decide ((rotatedPath savefile o.repoDir o.fileFormat idx).length < fileNameBufSize) &&
    env.fopen

section

variable (host : ByteOrder) {o : Options} {savefile : CStr} {env : RotateEnv} {st : State}

theorem rotateFile_opens (can : canOpen o savefile (st.fileNo + 1) env = true) :
    rotateFile host o savefile env st =
      { events :=
          fcloseSavefp st ++
            .fopen st.opened (st.fileNo + 1)
              (rotatedPath savefile o.repoDir o.fileFormat (st.fileNo + 1)) ::
            fwrites (.file st.opened) env.writes (fileHeader host o).blocks ++
            [.printf (.capturing
              (rotatedPath savefile o.repoDir o.fileFormat (st.fileNo + 1)))]
        state :=
          { st with
            savefp := some (.file st.opened), fileNo := st.fileNo + 1, opened := st.opened + 1
            fileSize := .ofNat (fileHeader host o).returned }
        ok := true } := by
  simp only [canOpen, Bool.and_eq_true, decide_eq_true_eq] at can
  obtain ⟨⟨dir, fits⟩, creates⟩ := can
  simp [rotateFile, dir, Nat.not_le.2 fits, creates]

theorem rotateFile_fails (cannot : canOpen o savefile (st.fileNo + 1) env = false) :
    ∃ error, rotateFile host o savefile env st =
      { events := fcloseSavefp st ++ [.rotateError error]
        state := { st with savefp := none, fileNo := st.fileNo + 1 }
        ok := false } := by
  unfold rotateFile
  by_cases dir : ensureDir (outDir savefile o.repoDir) env = false
  · exact ⟨_, by simp [dir]; rfl⟩
  · by_cases long :
        (rotatedPath savefile o.repoDir o.fileFormat (st.fileNo + 1)).length ≥ fileNameBufSize
    · exact ⟨_, by simp [dir, long]; rfl⟩
    · have refused : env.fopen = false := by
        simpa [canOpen, dir, Nat.not_le.1 long] using cannot
      exact ⟨_, by simp [dir, long, refused]; rfl⟩

end

/-! ## One turn of the loop -/

/-- A frame to be saved, with the reading of the rotation clock. -/
structure Arrival where
  frame : CapturedFrame
  now : Int

/-- What a turn brings: a frame if `rx_size > 0`. -/
def Turn.arrival (o : Options) (t : Turn) : Option Arrival :=
  if received : 0 < t.rxSize then
    some
      { frame :=
          { data := t.rxBuf, len := t.rxSize.toNat, tsps := t.tsps o
            nonempty := by omega
            fits := by have := t.rxSize_le; omega }
        now := t.now }
  else none

def arrivals (o : Options) (ts : List Turn) : List Arrival := ts.filterMap (Turn.arrival o)

theorem arrivals_cons (o : Options) (t : Turn) (ts : List Turn) :
    arrivals o (t :: ts) = (t.arrival o).toList ++ arrivals o ts := by
  unfold arrivals
  cases arrives : t.arrival o <;> simp [arrives]

/-- A rotation is due in front of a frame that arrives now. -/
def Due (o : Options) (nextRotationTime now : Int) : Prop :=
  0 < o.rotateSeconds ∧ nextRotationTime ≤ now

instance (o : Options) (nextRotationTime now : Int) : Decidable (Due o nextRotationTime now) :=
  inferInstanceAs (Decidable (_ ∧ _))

/-- The events before a frame is logged. -/
def receiving (o : Options) : List Event :=
  .receiveFrame :: if o.hwTstamp then [.hwTimestamp] else []

/-- The events of saving a frame. -/
def recording (host : ByteOrder) (o : Options) (fp : Stream) (t : Turn) (a : Arrival) :
    List Event :=
  fwrites fp t.writes (recordOf host o a.frame).blocks ++ if o.flush then [.fflush fp] else []

section

variable (host : ByteOrder) {o : Options} {t : Turn} {a : Arrival} {fp : Stream} {st : State}

theorem arrival_none (quiet : t.arrival o = none) : ¬ 0 < t.rxSize := by
  unfold Turn.arrival at quiet
  split at quiet
  · cases quiet
  · assumption

theorem arrival_some (arrives : t.arrival o = some a) :
    0 < t.rxSize ∧ a.now = t.now ∧
      recordOf host o a.frame = writePacket host o t.rxBuf t.rxSize (t.tsps o) := by
  unfold Turn.arrival at arrives
  split at arrives
  · rename_i received
    cases arrives
    refine ⟨received, rfl, ?_⟩
    rw [recordOf, Int.toNat_of_nonneg (Int.le_of_lt received)]
  · cases arrives

/-- A turn without a frame. -/
theorem turn_quiet (saving : st.savefp = some fp) (quiet : t.arrival o = none) :
    ∃ counters, turn host o t st =
      { events := [.receiveFrame], state := { st with counters }, ok := true } := by
  have none := arrival_none quiet
  unfold turn
  split
  · exact ⟨st.counters, rfl⟩
  · refine ⟨st.counters.update t.status, ?_⟩
    simp [saving, none]

/-- A turn without a save file only prints. -/
theorem turn_dumps (dumping : st.savefp = none) :
    (turn host o t st).ok = true ∧ (turn host o t st).state.savefp = none ∧
      ∀ e ∈ (turn host o t st).events, e = .receiveFrame ∨ e = .hwTimestamp ∨ e.isPrint = true := by
  unfold turn
  split
  · exact ⟨rfl, dumping, fun e member => .inl (List.mem_singleton.1 member)⟩
  · refine ⟨by simp, by simp [dumping], ?_⟩
    intro e member
    simp only [dump] at member
    grind [Event.isPrint]

theorem turn_logs (saving : st.savefp = some fp) (received : 0 < t.rxSize) :
    turn host o t st =
      { events := receiving o ++ (logFrame host o t st).events
        state :=
          if (logFrame host o t st).ok then
            { (logFrame host o t st).state with
              counters := (logFrame host o t st).state.counters.update t.status }
          else (logFrame host o t st).state
        ok := (logFrame host o t st).ok } := by
  have nonneg : ¬ t.rxSize < 0 := by omega
  simp [turn, nonneg, saving, received, receiving]

/-- A frame that is saved in the open file. -/
theorem turn_saves (saving : st.savefp = some fp) (arrives : t.arrival o = some a)
    (early : ¬ Due o st.nextRotationTime a.now) :
    ∃ fileSize counters, turn host o t st =
      { events := receiving o ++ recording host o fp t a
        state := { st with fileSize, counters }
        ok := true } := by
  obtain ⟨received, now, record⟩ := arrival_some host arrives
  have stays : rotateIfDue host o t st = { events := [], state := st, ok := true } :=
    if_neg (now ▸ early)
  have logged : logFrame host o t st =
      { events := recording host o fp t a
        state := { st with fileSize := st.fileSize + .ofNat (recordOf host o a.frame).returned }
        ok := true } := by
    simp [logFrame, stays, saving, saveFrame, record, recording]
  rw [turn_logs host saving received, logged]
  exact ⟨_, _, rfl⟩

/-- A frame in front of which the file is rotated. -/
theorem turn_rotates (saving : st.savefp = some fp) (arrives : t.arrival o = some a)
    (due : Due o st.nextRotationTime a.now)
    (can : canOpen o o.name (st.fileNo + 1) t.rotate = true) :
    ∃ fileSize counters, turn host o t st =
      { events :=
          receiving o ++ [.report st.counters, .fclose fp, .fopen st.opened (st.fileNo + 1)
              (rotatedPath o.name o.repoDir o.fileFormat (st.fileNo + 1))] ++
            fwrites (.file st.opened) t.rotate.writes (fileHeader host o).blocks ++
            [.printf (.capturing
              (rotatedPath o.name o.repoDir o.fileFormat (st.fileNo + 1)))] ++
            recording host o (.file st.opened) t a
        state :=
          { savefp := some (.file st.opened), fileNo := st.fileNo + 1, opened := st.opened + 1
            nextRotationTime := a.now + o.rotateSeconds.toNat, fileSize, counters }
        ok := true } := by
  obtain ⟨received, now, record⟩ := arrival_some host arrives
  have rotated : rotateIfDue host o t st = _ := if_pos (now ▸ due)
  rw [rotateFile_opens host can] at rotated
  rw [turn_logs host saving received]
  simp only [logFrame, rotated, if_true, saveFrame, ← record, ← now]
  refine ⟨.ofNat (fileHeader host o).returned + .ofNat (recordOf host o a.frame).returned,
    st.counters.update t.status, ?_⟩
  simp [recording, fcloseSavefp, saving]

/-- A frame in front of which the rotation fails. -/
theorem turn_stops (saving : st.savefp = some fp) (arrives : t.arrival o = some a)
    (due : Due o st.nextRotationTime a.now)
    (cannot : canOpen o o.name (st.fileNo + 1) t.rotate = false) :
    ∃ error, turn host o t st =
      { events := receiving o ++ [.report st.counters, .fclose fp, .rotateError error]
        state := { st with savefp := none, fileNo := st.fileNo + 1 }
        ok := false } := by
  obtain ⟨received, now, -⟩ := arrival_some host arrives
  obtain ⟨error, failed⟩ := rotateFile_fails host cannot
  have rotated : rotateIfDue host o t st = _ := if_pos (now ▸ due)
  rw [failed] at rotated
  refine ⟨error, ?_⟩
  rw [turn_logs host saving received]
  simp [logFrame, rotated, fcloseSavefp, saving]

@[simp] theorem lifecycle_receiving : lifecycle (receiving o) = [] := by
  unfold receiving
  split <;> rfl

@[simp] theorem askedOf_receiving (fp : Stream) : askedOf fp (receiving o) = [] := by
  unfold receiving
  split <;> rfl

@[simp] theorem lifecycle_recording (fp : Stream) (t : Turn) :
    lifecycle (recording host o fp t a) = [] := by
  unfold recording
  split <;> simp

@[simp] theorem askedOf_recording (fp q : Stream) (t : Turn) :
    askedOf fp (recording host o q t a) = if q = fp then (recordOf host o a.frame).bytes else [] := by
  unfold recording
  split <;> simp [Written.bytes]

@[simp] theorem rotates_receiving : Rotates (receiving o) := by
  unfold receiving
  split <;> decide

@[simp] theorem rotates_recording : Rotates (recording host o fp t a) := by
  unfold recording
  split <;> simp

/-- A turn that goes on has not failed to rotate, and still has a file. -/
theorem turn_goesOn (saving : st.savefp = some fp) (goes : (turn host o t st).ok = true) :
    Rotates (turn host o t st).events ∧ ∃ fp, (turn host o t st).state.savefp = some fp := by
  cases arrives : t.arrival o with
  | none =>
      obtain ⟨counters, does⟩ := turn_quiet host saving arrives
      rw [does]
      exact ⟨by simp, fp, saving⟩
  | some a =>
      by_cases due : Due o st.nextRotationTime a.now
      · cases can : canOpen o o.name (st.fileNo + 1) t.rotate with
        | false =>
            obtain ⟨error, does⟩ := turn_stops host saving arrives due can
            simp [does] at goes
        | true =>
            obtain ⟨fileSize, counters, does⟩ := turn_rotates host saving arrives due can
            rw [does]
            exact ⟨by simp, _, rfl⟩
      · obtain ⟨fileSize, counters, does⟩ := turn_saves host saving arrives due
        rw [does]
        exact ⟨by simp, fp, saving⟩

/-! ## The loop -/

theorem capture_goesOn {ts : List Turn} (goes : (turn host o t st).ok = true) :
    capture host o st (t :: ts) =
      { events :=
          (turn host o t st).events ++ (capture host o (turn host o t st).state ts).events
        state := (capture host o (turn host o t st).state ts).state
        ok := (capture host o (turn host o t st).state ts).ok } := by
  rw [capture]
  exact if_pos goes

theorem capture_stops {ts : List Turn} (stops : (turn host o t st).ok = false) :
    capture host o st (t :: ts) = turn host o t st := by
  rw [capture]
  exact if_neg (by simp [stops])

theorem capture_rotates {ts : List Turn} (saving : st.savefp = some fp)
    (goes : (capture host o st ts).ok = true) : Rotates (capture host o st ts).events := by
  induction ts generalizing st fp with
  | nil => exact rotates_nil
  | cons t ts ih =>
      cases one : (turn host o t st).ok with
      | false =>
          rw [capture_stops host one, one] at goes
          cases goes
      | true =>
          obtain ⟨first, fp, still⟩ := turn_goesOn host saving one
          rw [capture_goesOn host one] at goes ⊢
          exact rotates_append.2 ⟨first, ih still goes⟩

end

/-! ## `main` -/

/-- The device is acquired and takes the filters. -/
structure Setup.Acquires (o : Options) (env : Setup) : Prop where
  handle : env.acquireHandle = true
  rx : env.acquireRx = true
  filters : o.filter = true → env.applyFilters = true

section

variable (host : ByteOrder) {o : Options} {env : Setup} (ts : List Turn)

/-- A run that reaches the loop. -/
theorem main_captures (opens : (openSavefile host o env).ok = true) (acquires : env.Acquires o) :
    main host o env ts =
      let file := openSavefile host o env
      let loop := capture host o file.state ts
      { opening := file.events, acquiring := acquire o env, capturing := loop.events
        leaving := if loop.ok then leaveLoop o env loop.state else errApplyFilters loop.state
        exit := if loop.ok then 0 else 1 } := by
  have filters : (o.filter && !env.applyFilters) = false := by
    cases filter : o.filter with
    | true => simp [acquires.filters filter]
    | false => rfl
  simp only [main, opens, acquires.handle, acquires.rx, filters]
  cases (capture host o (openSavefile host o env).state ts).ok <;> rfl

theorem main_opening : (main host o env ts).opening = (openSavefile host o env).events := by
  simp only [main]
  split_ifs <;> rfl

theorem openSavefile_named {name : CStr} (named : o.savefile = some name)
    (notStdout : name ≠ ['-']) (can : canOpen o name 1 env.rotate = true) :
    openSavefile host o env =
      { events :=
          .fopen 0 1 (rotatedPath name o.repoDir o.fileFormat 1) ::
            fwrites (.file 0) env.rotate.writes (fileHeader host o).blocks ++
            [.printf (.capturing (rotatedPath name o.repoDir o.fileFormat 1))]
        state :=
          { State.initial with
            savefp := some (.file 0), fileNo := 1, opened := 1
            fileSize := .ofNat (fileHeader host o).returned
            nextRotationTime :=
              if 0 < o.rotateSeconds then env.now + o.rotateSeconds.toNat else 0 }
        ok := true } := by
  have can : canOpen o name (State.initial.fileNo + 1) env.rotate = true := can
  have opens := rotateFile_opens host can
  simp only [openSavefile, named, notStdout, opens, if_false, true_and]
  by_cases rotates : 0 < o.rotateSeconds <;> simp [rotates, fcloseSavefp, State.initial]

/-- A run that exits with 0 has acquired the device. -/
theorem acquires_of_exit (clean : (main host o env ts).exit = 0) :
    (openSavefile host o env).ok = true ∧ env.Acquires o ∧
      (capture host o (openSavefile host o env).state ts).ok = true := by
  simp only [main] at clean
  split_ifs at clean with opens handle rx filters goes
  refine ⟨by simpa using opens, ⟨by simpa using handle, by simpa using rx, ?_⟩, goes⟩
  intro filter
  simpa [filter] using filters

theorem openSavefile_refused {name : CStr} (named : o.savefile = some name)
    (notStdout : name ≠ ['-']) (cannot : canOpen o name 1 env.rotate = false) :
    ∃ error, (openSavefile host o env).events = [.rotateError error] ∧
      (openSavefile host o env).ok = false := by
  have cannot : canOpen o name (State.initial.fileNo + 1) env.rotate = false := cannot
  obtain ⟨error, failed⟩ := rotateFile_fails host cannot
  refine ⟨error, ?_⟩
  simp only [openSavefile, named, notStdout, failed, if_false]
  exact ⟨rfl, trivial⟩

/-- A run that exits with 0 has never failed to rotate. -/
theorem rotates_of_exit {name : CStr} (named : o.savefile = some name) (notStdout : name ≠ ['-'])
    (clean : (main host o env ts).exit = 0) : Rotates (main host o env ts).trace := by
  obtain ⟨opens, acquires, goes⟩ := acquires_of_exit host ts clean
  cases can : canOpen o name 1 env.rotate with
  | false =>
      obtain ⟨_, -, refused⟩ := openSavefile_refused host named notStdout can
      rw [refused] at opens
      cases opens
  | true =>
      have opened := openSavefile_named host named notStdout can
      have saving : (openSavefile host o env).state.savefp = some (.file 0) := by rw [opened]
      have opening : Rotates (openSavefile host o env).events := by
        rw [opened]
        simp
      have loop := capture_rotates host saving goes
      have acquiring : Rotates (acquire o env) := by
        unfold acquire
        split <;> split <;> split <;> simp
      have leaving : Rotates (leaveLoop o env
          (capture host o (openSavefile host o env).state ts).state) := by
        unfold leaveLoop fcloseSavefp
        split <;> split <;> simp
      rw [main_captures host ts opens acquires]
      simp only [goes, if_true, Run.trace]
      exact rotates_append.2
        ⟨rotates_append.2 ⟨rotates_append.2 ⟨opening, acquiring⟩, loop⟩, leaving⟩

end

/-! ## The rest of a run -/

/-- A call that prints nothing, stores nothing and opens nothing. -/
def Event.isIdle : Event → Bool
  | .fopen _ _ _ => false
  | .fwrite _ _ _ => false
  | .printf _ => false
  | _ => true

/-- The events print nothing, store nothing and open nothing. -/
structure Idle (es : List Event) : Prop where
  silent : ∀ e ∈ es, e.isPrint = false
  stores : ∀ fp, writtenTo fp es = []
  asks : ∀ fp, askedOf fp es = []
  opens : ∀ e ∈ es, e.isOpening = false

theorem idle_of_all {es : List Event} (idle : ∀ e ∈ es, e.isIdle = true) : Idle es := by
  refine ⟨fun e member => ?_, fun fp => ?_, fun fp => ?_, fun e member => ?_⟩
  · have := idle e member
    cases e <;> first | rfl | cases this
  · apply List.flatMap_eq_nil_iff.2
    intro e member
    have := idle e member
    cases e <;> first | rfl | cases this
  · apply List.flatMap_eq_nil_iff.2
    intro e member
    have := idle e member
    cases e <;> first | rfl | cases this
  · have := idle e member
    cases e <;> first | rfl | cases this

theorem Idle.append {es fs : List Event} (first : Idle es) (second : Idle fs) :
    Idle (es ++ fs) where
  silent := List.forall_mem_append.2 ⟨first.silent, second.silent⟩
  stores fp := by rw [writtenTo_append, first.stores, second.stores, List.append_nil]
  asks fp := by rw [askedOf_append, first.asks, second.asks, List.append_nil]
  opens := List.forall_mem_append.2 ⟨first.opens, second.opens⟩

theorem idle_fcloseSavefp (st : State) : Idle (fcloseSavefp st) := by
  unfold fcloseSavefp
  split <;> exact idle_of_all (by simp [Event.isIdle])

section

variable (host : ByteOrder) {o : Options} {env : Setup} (ts : List Turn)

theorem idle_acquire (o : Options) (env : Setup) :
    Idle (acquire o env) ∧ lifecycle (acquire o env) = [] := by
  unfold acquire
  split <;> split <;> split <;> exact ⟨idle_of_all (by simp [Event.isIdle]), rfl⟩

theorem idle_leaveLoop (o : Options) (env : Setup) (st : State) : Idle (leaveLoop o env st) := by
  unfold leaveLoop
  refine Idle.append ?_ (idle_fcloseSavefp st)
  split <;> exact idle_of_all (by simp [Event.isIdle])

/-- A run without the device opens its save file and leaves. -/
theorem main_refused (opens : (openSavefile host o env).ok = true) (refused : ¬ env.Acquires o) :
    (main host o env ts).capturing = [] ∧ Idle (main host o env ts).acquiring ∧
      lifecycle (main host o env ts).acquiring = [] ∧ Idle (main host o env ts).leaving := by
  have closing := idle_fcloseSavefp (openSavefile host o env).state
  have releasing : Idle [.releaseHandle] := idle_of_all (by decide)
  have releasingRx : Idle [.releaseRx] := idle_of_all (by decide)
  have nothing : Idle [] := idle_of_all (by decide)
  have handleOnly : Idle [.acquireHandle] := idle_of_all (by decide)
  have untilFilters : Idle [.acquireHandle, .acquireRx, .applyFilters] := idle_of_all (by decide)
  cases handle : env.acquireHandle with
  | false =>
      simp only [main, opens, handle]
      exact ⟨rfl, nothing, rfl, closing⟩
  | true =>
      cases rx : env.acquireRx with
      | false =>
          simp only [main, opens, handle, rx]
          exact ⟨rfl, handleOnly, rfl, releasing.append closing⟩
      | true =>
          have filters : (o.filter && !env.applyFilters) = true := by
            by_contra accepted
            refine refused ⟨handle, rx, ?_⟩
            intro filter
            simpa [filter] using accepted
          simp only [main, opens, handle, rx, filters]
          exact ⟨rfl, untilFilters, rfl, releasingRx.append (releasing.append closing)⟩

end

end ExanicCapture.Capture
