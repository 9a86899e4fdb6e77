/-
# Capture.Stdout -- capturing to the standard output

`-w -` is meant to write to the standard output what a capture without rotation writes
to its file.  Two things go wrong.  The pcap header is written by `rotate_file` only,
which `-w -` does not call; and with `-G` the first rotation is due at once, because
`next_rotation_time` is still 0, so the first frame closes the standard output.

`stdoutAgrees_iff` says that these are the only two: the standard output agrees with
the file exactly for ERF without a due rotation.
-/
import ExanicCapture.Capture.Trace

namespace ExanicCapture.Capture

set_option autoImplicit false

open Theory Save

/-! ## What a capture without rotation stores -/

/-- The part of a few blocks that is stored. -/
def storedBlocks (writes : Writes) : List (List UInt8) → List UInt8
  | [] => []
  | block :: blocks => stored (writes 0) block ++ storedBlocks (fun i => writes (i + 1)) blocks

/-- What is stored of the record of a turn. -/
def storedRecord (host : ByteOrder) (o : Options) (t : Turn) : List UInt8 :=
  match t.arrival o with
  | some a => storedBlocks t.writes (recordOf host o a.frame).blocks
  | none => []

/-- The events open, close and print nothing. -/
structure Steady (es : List Event) : Prop where
  lives : lifecycle es = []
  silent : ∀ e ∈ es, e.isPrint = false

theorem Steady.nil : Steady [] := ⟨rfl, fun _ member => by cases member⟩

theorem Steady.append {es fs : List Event} (first : Steady es) (second : Steady fs) :
    Steady (es ++ fs) where
  lives := by rw [lifecycle_append, first.lives, second.lives, List.append_nil]
  silent := List.forall_mem_append.2 ⟨first.silent, second.silent⟩

@[simp] theorem writtenTo_fwrites (fp q : Stream) (writes : Writes) (blocks : List (List UInt8)) :
    writtenTo fp (fwrites q writes blocks) = if q = fp then storedBlocks writes blocks else [] := by
  induction blocks generalizing writes with
  | nil => simp [fwrites, storedBlocks]
  | cons block blocks ih =>
      rw [fwrites, writtenTo_cons, ih]
      by_cases same : q = fp <;> simp [same, storedBlocks]

theorem steady_fwrites (fp : Stream) (writes : Writes) (blocks : List (List UInt8)) :
    Steady (fwrites fp writes blocks) := by
  refine ⟨lifecycle_fwrites fp writes blocks, ?_⟩
  induction blocks generalizing writes with
  | nil => exact fun _ member => by cases member
  | cons block blocks ih => exact List.forall_mem_cons.2 ⟨rfl, ih _⟩

section

variable (host : ByteOrder) {o : Options} {fp : Stream} {st : State}

theorem steady_receiving : Steady (receiving o) := by
  unfold receiving
  split <;> exact ⟨rfl, by decide⟩

theorem steady_recording (t : Turn) (a : Arrival) : Steady (recording host o fp t a) := by
  refine (steady_fwrites fp t.writes _).append ?_
  split
  · exact ⟨rfl, fun e member => by simp [List.mem_singleton.1 member]⟩
  · exact Steady.nil

/-- A turn without a rotation writes its record and nothing else. -/
theorem turn_steady {t : Turn} (saving : st.savefp = some fp)
    (early : ∀ a, t.arrival o = some a → ¬ Due o st.nextRotationTime a.now) :
    (turn host o t st).ok = true ∧ Steady (turn host o t st).events ∧
      (∀ q, writtenTo q (turn host o t st).events = if fp = q then storedRecord host o t else []) ∧
      (∀ q, askedOf q (turn host o t st).events =
        if fp = q then (t.arrival o).toList.flatMap fun a => (recordOf host o a.frame).bytes
        else []) ∧
      (turn host o t st).state.savefp = some fp ∧
      (turn host o t st).state.nextRotationTime = st.nextRotationTime := by
  cases arrives : t.arrival o with
  | none =>
      obtain ⟨counters, does⟩ := turn_quiet host saving arrives
      rw [does]
      refine ⟨rfl, ⟨rfl, by simp⟩, fun q => ?_, fun q => ?_, saving, rfl⟩
      · simp [storedRecord, arrives]
      · simp
  | some a =>
      obtain ⟨fileSize, counters, does⟩ := turn_saves host saving arrives (early a arrives)
      rw [does]
      refine ⟨rfl, steady_receiving.append (steady_recording host t a), fun q => ?_, fun q => ?_,
        saving, rfl⟩
      · have nothing : writtenTo q (receiving o) = [] := by
          unfold receiving
          split <;> rfl
        have flushes : writtenTo q (if o.flush then [.fflush fp] else []) = [] := by
          split <;> rfl
        rw [writtenTo_append, nothing, recording, writtenTo_append, flushes, writtenTo_fwrites,
          List.append_nil, storedRecord, arrives]
        rfl
      · simp

theorem capture_steady {ts : List Turn} (saving : st.savefp = some fp)
    (early : ∀ a ∈ arrivals o ts, ¬ Due o st.nextRotationTime a.now) :
    (capture host o st ts).ok = true ∧ Steady (capture host o st ts).events ∧
      (∀ q, writtenTo q (capture host o st ts).events =
        if fp = q then ts.flatMap (storedRecord host o) else []) ∧
      (∀ q, askedOf q (capture host o st ts).events =
        if fp = q then (arrivals o ts).flatMap fun a => (recordOf host o a.frame).bytes
        else []) ∧
      (capture host o st ts).state.savefp = some fp := by
  induction ts generalizing st with
  | nil =>
      exact ⟨rfl, Steady.nil, fun q => by simp [capture], fun q => by simp [capture, arrivals],
        saving⟩
  | cons t ts ih =>
      have first : ∀ a, t.arrival o = some a → ¬ Due o st.nextRotationTime a.now :=
        fun a arrives => early a (by simp [arrivals_cons, arrives])
      obtain ⟨goes, steady, stores, asks, still, next⟩ := turn_steady host saving first
      have others : ∀ a ∈ arrivals o ts,
          ¬ Due o (turn host o t st).state.nextRotationTime a.now := by
        intro a member
        rw [next]
        exact early a (arrivals_cons o t ts ▸ List.mem_append_right _ member)
      obtain ⟨goesOn, steady', stores', asks', still'⟩ := ih still others
      rw [capture_goesOn host goes]
      refine ⟨goesOn, steady.append steady', fun q => ?_, fun q => ?_, still'⟩
      · rw [writtenTo_append, stores, stores', List.flatMap_cons]
        split <;> rfl
      · rw [askedOf_append, asks, asks', arrivals_cons, List.flatMap_append]
        split <;> rfl

/-- A frame that is due closes the file in front of it. -/
theorem capture_closes {ts : List Turn} (saving : st.savefp = some fp)
    (due : ∃ a ∈ arrivals o ts, Due o st.nextRotationTime a.now) :
    .fclose fp ∈ (capture host o st ts).events := by
  induction ts generalizing st with
  | nil => obtain ⟨a, member, -⟩ := due; cases member
  | cons t ts ih =>
      by_cases first : ∃ a, t.arrival o = some a ∧ Due o st.nextRotationTime a.now
      · obtain ⟨a, arrives, due⟩ := first
        cases can : canOpen o o.name (st.fileNo + 1) t.rotate with
        | true =>
            obtain ⟨fileSize, counters, does⟩ := turn_rotates host saving arrives due can
            rw [capture_goesOn host (by rw [does]), does]
            simp
        | false =>
            obtain ⟨error, does⟩ := turn_stops host saving arrives due can
            rw [capture_stops host (by rw [does]), does]
            simp
      · have early : ∀ a, t.arrival o = some a → ¬ Due o st.nextRotationTime a.now :=
          fun a arrives due => first ⟨a, arrives, due⟩
        obtain ⟨goes, -, -, -, still, next⟩ := turn_steady host saving early
        obtain ⟨a, member, due⟩ := due
        rw [arrivals_cons] at member
        have later : a ∈ arrivals o ts := by
          rcases List.mem_append.1 member with now | later
          · exact absurd due (early a (Option.mem_toList.1 now))
          · exact later
        rw [capture_goesOn host goes]
        exact List.mem_append_right _ (ih still ⟨a, later, next.symm ▸ due⟩)

end

/-! ## The standard output and the file -/

/-- The state in which `-w -` enters the loop. -/
def State.onStdout : State := { State.initial with savefp := some .stdout }

theorem openSavefile_stdout (host : ByteOrder) {o : Options} (env : Setup)
    (stdout : o.savefile = some ['-']) :
    openSavefile host o env = { events := [], state := .onStdout, ok := true } := by
  simp [openSavefile, stdout, State.onStdout]

/-- The same options, with a named file and no rotation. -/
def Options.toFile (o : Options) (name : CStr) : Options :=
  { o with savefile := some name, rotateSeconds := 0 }

def Setup.onDisk (env : Setup) (disk : RotateEnv) : Setup := { env with rotate := disk }

/-- The standard output gets what a named file gets on any disk where it can be
created, and nothing else; it is not closed before the run ends, and no file is
created. -/
structure StdoutAgrees (host : ByteOrder) (o : Options) (env : Setup) (ts : List Turn) : Prop where
  bytes : ∀ name disk, name ≠ ['-'] → canOpen (o.toFile name) name 1 disk = true →
    (∀ i, disk.writes i = none) →
    writtenTo .stdout (main host o env ts).trace =
      writtenTo (.file 0) (main host (o.toFile name) (env.onDisk disk) ts).trace
  silent : ∀ e ∈ (main host o env ts).trace, e.isPrint = false
  staysOpen : .fclose .stdout ∉ (main host o env ts).opening ++ (main host o env ts).acquiring ++
    (main host o env ts).capturing
  noFile : ∀ e ∈ (main host o env ts).trace, e.isOpening = false

theorem storedBlocks_complete {writes : Writes} (complete : ∀ i, writes i = none)
    (blocks : List (List UInt8)) : storedBlocks writes blocks = blocks.flatten := by
  induction blocks generalizing writes with
  | nil => rfl
  | cons block blocks ih =>
      rw [storedBlocks, complete, stored, List.flatten_cons, ih fun i => complete (i + 1)]

theorem Steady.noOpening {es : List Event} (steady : Steady es) :
    ∀ e ∈ es, e.isOpening = false := by
  intro e member
  by_contra opens
  have : e ∈ lifecycle es := by
    refine List.mem_filter.2 ⟨member, ?_⟩
    cases e <;> simp_all [Event.isOpening]
  rw [steady.lives] at this
  cases this

theorem not_fclose {es : List Event} (lives : lifecycle es = []) (fp : Stream) :
    .fclose fp ∉ es := by
  intro member
  have : .fclose fp ∈ lifecycle es := List.mem_filter.2 ⟨member, rfl⟩
  rw [lives] at this
  cases this

section

variable {host : ByteOrder} {o : Options} {env : Setup} {ts : List Turn}

/-- A named file without rotation holds its header and the records of all frames. -/
theorem toFile_writes {name : CStr} {disk : RotateEnv} (notStdout : name ≠ ['-'])
    (can : canOpen (o.toFile name) name 1 disk = true) (complete : ∀ i, disk.writes i = none) :
    (env.Acquires o → writtenTo (.file 0) (main host (o.toFile name) (env.onDisk disk) ts).trace =
        (fileHeader host o).bytes ++ ts.flatMap (storedRecord host o)) ∧
      (¬ env.Acquires o →
        writtenTo (.file 0) (main host (o.toFile name) (env.onDisk disk) ts).trace =
          (fileHeader host o).bytes) := by
  have opened : openSavefile host (o.toFile name) (env.onDisk disk) = _ :=
    openSavefile_named host rfl notStdout can
  have opens : (openSavefile host (o.toFile name) (env.onDisk disk)).ok = true := by rw [opened]
  have saving : (openSavefile host (o.toFile name) (env.onDisk disk)).state.savefp =
      some (.file 0) := by rw [opened]
  have header : writtenTo (.file 0) (openSavefile host (o.toFile name) (env.onDisk disk)).events =
      (fileHeader host o).bytes := by
    rw [opened]
    have whole := storedBlocks_complete complete (fileHeader host (o.toFile name)).blocks
    simp only [writtenTo_append, writtenTo_cons, writtenTo_fwrites, writtenTo_nil, Event.written,
      if_true, List.nil_append, List.append_nil]
    exact whole
  have acquires_iff : env.Acquires o ↔ (env.onDisk disk).Acquires (o.toFile name) :=
    ⟨fun ⟨handle, rx, filters⟩ => ⟨handle, rx, filters⟩,
      fun ⟨handle, rx, filters⟩ => ⟨handle, rx, filters⟩⟩
  refine ⟨fun acquires => ?_, fun refused => ?_⟩
  · have early : ∀ a ∈ arrivals (o.toFile name) ts, ¬ Due (o.toFile name)
        (openSavefile host (o.toFile name) (env.onDisk disk)).state.nextRotationTime a.now :=
      fun _ _ due => absurd (show (0 : UInt32) < 0 from due.1) (by decide)
    obtain ⟨goes, -, stores, -, -⟩ := capture_steady host saving early
    rw [main_captures host ts opens (acquires_iff.1 acquires)]
    simp only [goes, if_true, Run.trace, writtenTo_append, header, stores,
      (idle_acquire _ _).1.stores, (idle_leaveLoop _ _ _).stores, List.append_nil]
    rfl
  · obtain ⟨nothing, acquiring, -, leaving⟩ :=
      main_refused host ts opens (mt acquires_iff.2 refused)
    rw [Run.trace, main_opening, nothing]
    simp only [writtenTo_append, header, acquiring.stores, leaving.stores, List.append_nil]

/-- When nothing but records goes to the standard output, only the header is missing. -/
theorem stdoutAgrees_iff_erf {body : List UInt8}
    (bytes : writtenTo .stdout (main host o env ts).trace = body)
    (file : ∀ name disk, name ≠ ['-'] → canOpen (o.toFile name) name 1 disk = true →
      (∀ i, disk.writes i = none) →
      writtenTo (.file 0) (main host (o.toFile name) (env.onDisk disk) ts).trace =
        (fileHeader host o).bytes ++ body)
    (silent : ∀ e ∈ (main host o env ts).trace, e.isPrint = false)
    (staysOpen : .fclose .stdout ∉ (main host o env ts).opening ++
      (main host o env ts).acquiring ++ (main host o env ts).capturing)
    (noFile : ∀ e ∈ (main host o env ts).trace, e.isOpening = false) :
    StdoutAgrees host o env ts ↔ o.fileFormat = .erf := by
  constructor
  · intro agrees
    cases format : o.fileFormat with
    | erf => rfl
    | pcap =>
        have can : canOpen (o.toFile ['a', '/', 'a']) ['a', '/', 'a'] 1 Poles.disk = true := by
          have dir : outDir ['a', '/', 'a'] o.repoDir = ['a'] := rfl
          simp only [canOpen, Options.toFile, rotatedPath, format, dir]
          decide
        have same := agrees.bytes _ _ (by decide) can fun _ => rfl
        rw [bytes, file _ _ (by decide) can fun _ => rfl] at same
        have length := congrArg List.length same
        rw [List.length_append, fileHeader, format, ← writePcapHeader_returned] at length
        simp [writePcapHeader] at length
  · intro format
    refine ⟨fun name disk notStdout can complete => ?_, silent, staysOpen, noFile⟩
    rw [bytes, file name disk notStdout can complete, fileHeader, format]
    rfl

/-- With the device, and no rotation due at any frame. -/
theorem stdoutAgrees_early (stdout : o.savefile = some ['-']) (acquires : env.Acquires o)
    (early : ∀ a ∈ arrivals o ts, ¬ Due o State.onStdout.nextRotationTime a.now) :
    StdoutAgrees host o env ts ↔ o.fileFormat = .erf := by
  have opened := openSavefile_stdout host env stdout
  have opens : (openSavefile host o env).ok = true := by rw [opened]
  have does := main_captures host ts opens acquires
  obtain ⟨goes, steady, stores, -, -⟩ := capture_steady host (show State.onStdout.savefp = _ from rfl)
    early
  obtain ⟨acquiring, unclosed⟩ := idle_acquire o env
  have leaving := idle_leaveLoop o env (capture host o .onStdout ts).state
  simp only [opened, goes, if_true] at does
  have bytes : writtenTo .stdout (main host o env ts).trace =
      ts.flatMap (storedRecord host o) := by
    rw [does]
    simp [Run.trace, acquiring.stores, leaving.stores, stores]
  refine stdoutAgrees_iff_erf bytes ?_ ?_ ?_ ?_
  · intro name disk notStdout can complete
    exact (toFile_writes notStdout can complete).1 acquires
  · rw [does]
    exact List.forall_mem_append.2 ⟨List.forall_mem_append.2 ⟨List.forall_mem_append.2
      ⟨by simp, acquiring.silent⟩, steady.silent⟩, leaving.silent⟩
  · rw [does]
    simp [not_fclose unclosed, not_fclose steady.lives]
  · rw [does]
    exact List.forall_mem_append.2 ⟨List.forall_mem_append.2 ⟨List.forall_mem_append.2
      ⟨by simp, acquiring.opens⟩, steady.noOpening⟩, leaving.opens⟩

/-- With a rotation due, which closes the standard output. -/
theorem not_stdoutAgrees_due (stdout : o.savefile = some ['-']) (acquires : env.Acquires o)
    (due : ∃ a ∈ arrivals o ts, Due o State.onStdout.nextRotationTime a.now) :
    ¬ StdoutAgrees host o env ts := by
  have opened := openSavefile_stdout host env stdout
  have opens : (openSavefile host o env).ok = true := by rw [opened]
  intro agrees
  refine absurd ?_ agrees.staysOpen
  rw [main_captures host ts opens acquires, opened]
  exact List.mem_append_right _ (capture_closes host rfl due)

/-- Without the device. -/
theorem stdoutAgrees_refused (stdout : o.savefile = some ['-']) (refused : ¬ env.Acquires o) :
    StdoutAgrees host o env ts ↔ o.fileFormat = .erf := by
  have opened := openSavefile_stdout host env stdout
  have opens : (openSavefile host o env).ok = true := by rw [opened]
  obtain ⟨nothing, acquiring, unclosed, leaving⟩ := main_refused host ts opens refused
  have opening : (main host o env ts).opening = [] := by rw [main_opening, opened]
  have bytes : writtenTo .stdout (main host o env ts).trace = [] := by
    simp [Run.trace, opening, nothing, acquiring.stores, leaving.stores]
  refine stdoutAgrees_iff_erf bytes ?_ ?_ ?_ ?_
  · intro name disk notStdout can complete
    rw [(toFile_writes notStdout can complete).2 refused, List.append_nil]
  · rw [Run.trace, opening, nothing]
    exact List.forall_mem_append.2 ⟨by simpa using acquiring.silent, leaving.silent⟩
  · simpa [opening, nothing] using not_fclose unclosed .stdout
  · rw [Run.trace, opening, nothing]
    exact List.forall_mem_append.2 ⟨by simpa using acquiring.opens, leaving.opens⟩

/-- **When the standard output agrees with the file.**  For ERF, if no frame that is
captured finds a rotation due: without `-G`, or before the epoch. -/
theorem stdoutAgrees_iff (host : ByteOrder) (o : Options) (stdout : o.savefile = some ['-'])
    (env : Setup) (ts : List Turn) :
    StdoutAgrees host o env ts ↔
      o.fileFormat = .erf ∧
        (env.Acquires o → 0 < o.rotateSeconds → ∀ a ∈ arrivals o ts, a.now < 0) := by
  by_cases acquires : env.Acquires o
  · by_cases early : ∀ a ∈ arrivals o ts, ¬ Due o State.onStdout.nextRotationTime a.now
    · have beforeEpoch : 0 < o.rotateSeconds → ∀ a ∈ arrivals o ts, a.now < 0 := by
        intro rotates a member
        by_contra late
        exact early a member ⟨rotates, Int.not_lt.1 late⟩
      rw [stdoutAgrees_early stdout acquires early]
      exact (and_iff_left fun _ => beforeEpoch).symm
    · have due : ∃ a ∈ arrivals o ts, Due o State.onStdout.nextRotationTime a.now := by
        simpa using early
      refine iff_of_false (not_stdoutAgrees_due stdout acquires due) ?_
      rintro ⟨-, beforeEpoch⟩
      obtain ⟨a, member, rotates, late⟩ := due
      exact absurd (beforeEpoch acquires rotates a member) (Int.not_lt.2 late)
  · rw [stdoutAgrees_refused stdout acquires]
    exact (and_iff_left fun acquires' => absurd acquires' acquires).symm

end

namespace Poles

def toStdout : Options := { options with savefile := some ['-'] }

end Poles

/-- With `-G 10`, a frame at second 3. -/
theorem stdoutAgrees_iff_one :
    StdoutAgrees .little Poles.toStdout Poles.setup [Poles.frame 3] ↔
      Poles.toStdout.fileFormat = .erf ∧
        (Poles.setup.Acquires Poles.toStdout → 0 < Poles.toStdout.rotateSeconds →
          ∀ a ∈ arrivals Poles.toStdout [Poles.frame 3], a.now < 0) :=
  stdoutAgrees_iff .little Poles.toStdout rfl Poles.setup [Poles.frame 3]

/-- One frame in pcap format and no rotation: the header is missing. -/
theorem stdout_without_header :
    ¬ ∀ (host : ByteOrder) (o : Options) (env : Setup) (ts : List Turn),
      o.savefile = some ['-'] → StdoutAgrees host o env ts := by
  intro agrees
  have one := agrees .little { Poles.toStdout with fileFormat := .pcap, rotateSeconds := 0 }
    Poles.setup [Poles.frame 3] rfl
  exact absurd (one.bytes ['a'] Poles.disk (by decide) (by decide) fun _ => rfl) (by decide)

end ExanicCapture.Capture
