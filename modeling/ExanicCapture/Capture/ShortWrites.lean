/-
# Capture.ShortWrites -- what a short write does to a capture

The program looks at the result of no `fwrite`: what it does next is the same
whatever was stored (`main_exit_storing`).  So a capture that exits with 0 has handed
its outputs their headers and records (`Hands`), but they hold them only as far as the
writes went, and `Hands.accounts_iff` says that nothing less than all of them will do:
the outputs read back as the frames exactly when every write was complete.

The proof counts bytes.  A record tells its own size, so outputs that read back as all
the records are as long as all that was written, and no write can have fallen short.
-/
import ExanicCapture.Capture.Rotation
import ExanicCapture.Capture.Stdout

namespace ExanicCapture.Capture

set_option autoImplicit false

open Theory Save

/-! ## Stored bytes are a first part of the bytes asked for -/

def Event.StoresPart : Event → Prop
  | .fwrite _ asked stored => ∃ n, stored = asked.take n
  | _ => True

/-- Every `fwrite` stored a first part of its block. -/
def StoresParts (es : List Event) : Prop := ∀ e ∈ es, e.StoresPart

@[simp] theorem storesParts_nil : StoresParts [] := fun _ member => by cases member

@[simp] theorem storesParts_cons {e : Event} {es : List Event} :
    StoresParts (e :: es) ↔ e.StoresPart ∧ StoresParts es :=
  List.forall_mem_cons

@[simp] theorem storesParts_append {es fs : List Event} :
    StoresParts (es ++ fs) ↔ StoresParts es ∧ StoresParts fs :=
  List.forall_mem_append

theorem stored_part (limit : Option ℕ) (block : List UInt8) : ∃ n, stored limit block = block.take n := by
  cases limit with
  | none => exact ⟨block.length, List.take_length.symm⟩
  | some n => exact ⟨n, rfl⟩

@[simp] theorem storesParts_fwrites (fp : Stream) (writes : Writes) (blocks : List (List UInt8)) :
    StoresParts (fwrites fp writes blocks) := by
  induction blocks generalizing writes with
  | nil => exact storesParts_nil
  | cons block blocks ih => exact storesParts_cons.2 ⟨stored_part _ _, ih _⟩

section

variable (host : ByteOrder) (o : Options) (st : State)

theorem rotateFile_storesParts (savefile : CStr) (env : RotateEnv) :
    StoresParts (rotateFile host o savefile env st).events := by
  have closing : StoresParts (fcloseSavefp st) := by
    unfold fcloseSavefp
    split <;> simp [Event.StoresPart]
  simp only [rotateFile]
  split_ifs <;> simp [closing, Event.StoresPart]

theorem logFrame_storesParts (t : Turn) : StoresParts (logFrame host o t st).events := by
  have rotating : StoresParts (rotateIfDue host o t st).events := by
    simp only [rotateIfDue]
    split
    · exact storesParts_cons.2 ⟨trivial, rotateFile_storesParts host o st o.name t.rotate⟩
    · exact storesParts_nil
  have saving (fp : Stream) (st : State) : StoresParts (saveFrame host o t fp st).events := by
    unfold saveFrame
    split <;> simp [Event.StoresPart]
  simp only [logFrame]
  split
  · exact storesParts_append.2 ⟨rotating, saving _ _⟩
  · exact rotating

theorem turn_storesParts (t : Turn) : StoresParts (turn host o t st).events := by
  have dumping : StoresParts (dump o t) := by
    unfold dump
    split <;> simp [Event.StoresPart]
  have logging := logFrame_storesParts host o st t
  simp only [turn]
  split_ifs <;> simp [Event.StoresPart, dumping, logging]

theorem capture_storesParts (ts : List Turn) : StoresParts (capture host o st ts).events := by
  induction ts generalizing st with
  | nil => exact storesParts_nil
  | cons t ts ih =>
      cases one : (turn host o t st).ok with
      | true =>
          rw [capture_goesOn host one]
          exact storesParts_append.2 ⟨turn_storesParts host o st t, ih _⟩
      | false =>
          rw [capture_stops host one]
          exact turn_storesParts host o st t

theorem main_storesParts (env : Setup) (ts : List Turn) :
    StoresParts (main host o env ts).trace := by
  have closing (st : State) : StoresParts (fcloseSavefp st) := by
    unfold fcloseSavefp
    split <;> simp [Event.StoresPart]
  have opening : StoresParts (openSavefile host o env).events := by
    simp only [openSavefile]
    split
    · exact storesParts_nil
    · split
      · exact storesParts_nil
      · exact rotateFile_storesParts host o .initial _ env.rotate
  have acquiring : StoresParts (acquire o env) := by
    unfold acquire
    split <;> split <;> split <;> simp [Event.StoresPart]
  have looping := capture_storesParts host o (openSavefile host o env).state ts
  have leaving (st : State) : StoresParts (leaveLoop o env st) := by
    unfold leaveLoop
    split <;> simp [Event.StoresPart, closing]
  simp only [main]
  split_ifs <;>
    simp [Run.trace, Event.StoresPart, opening, acquiring, looping, leaving, closing,
      errAcquireHandle, errAcquireRx, errApplyFilters]

end

/-! ## Counting bytes -/

section

variable {es : List Event}

theorem StoresParts.length_le (parts : StoresParts es) (fp : Stream) :
    (writtenTo fp es).length ≤ (askedOf fp es).length := by
  induction es with
  | nil => exact Nat.le_refl _
  | cons e es ih =>
      obtain ⟨first, others⟩ := storesParts_cons.1 parts
      have one : (e.written fp).length ≤ (e.asked fp).length := by
        cases e with
        | fwrite q asked stored =>
            obtain ⟨n, rfl⟩ := first
            by_cases same : q = fp <;> simp [same]
        | _ => exact Nat.le_refl _
      have rest := ih others
      simp only [writtenTo, askedOf, List.flatMap_cons, List.length_append] at rest ⊢
      omega

/-- A stream that holds as many bytes as it was asked to had no short write. -/
theorem StoresParts.complete_of_length (parts : StoresParts es)
    (full : ∀ fp, (askedOf fp es).length ≤ (writtenTo fp es).length) : Complete es := by
  induction es with
  | nil => exact fun _ member => by cases member
  | cons e es ih =>
      obtain ⟨first, others⟩ := storesParts_cons.1 parts
      have one (fp : Stream) : (e.written fp).length ≤ (e.asked fp).length := by
        have single : StoresParts [e] := storesParts_cons.2 ⟨first, storesParts_nil⟩
        simpa [writtenTo] using single.length_le fp
      have split (fp : Stream) : (e.asked fp).length + (askedOf fp es).length ≤
          (e.written fp).length + (writtenTo fp es).length := by
        have := full fp
        simpa [writtenTo] using this
      have rest := ih others fun fp => by
        have := split fp
        have := one fp
        omega
      refine List.forall_mem_cons.2 ⟨?_, rest⟩
      cases e with
      | fwrite fp asked stored =>
          obtain ⟨n, rfl⟩ := first
          have whole := split fp
          have others := others.length_le fp
          simp only [Event.asked, Event.written, if_true, List.length_take] at whole
          have : asked.length ≤ n := by omega
          simp [Event.isShortWrite, List.take_of_length_le this]
      | _ => rfl

end

/-- Terms that are each at most as large and have the same sum are equal. -/
theorem eq_of_sum_map_eq {ι : Type} {f g : ι → ℕ} {is : List ι} (le : ∀ i, f i ≤ g i)
    (same : (is.map f).sum = (is.map g).sum) : ∀ i ∈ is, f i = g i := by
  have total : ∀ js : List ι, (js.map f).sum ≤ (js.map g).sum := by
    intro js
    induction js with
    | nil => exact Nat.le_refl _
    | cons j js ih => exact Nat.add_le_add (le j) ih
  induction is with
  | nil => exact fun _ member => by cases member
  | cons i is ih =>
      have first := le i
      have rest := total is
      rw [List.map_cons, List.map_cons, List.sum_cons, List.sum_cons] at same
      exact List.forall_mem_cons.2 ⟨by omega, ih (by omega)⟩

/-- How long files are that read back as these records. -/
theorem length_of_reads {format : FileFormat} {content : Stream → List UInt8}
    {fps : List Stream} {decoded : List (List SavedRecord)}
    (reads : List.Forall₂ (fun fp records => readFile format (content fp) = some records)
      fps decoded) :
    (fps.map fun fp => (content fp).length).sum =
      fps.length * headerSize format + (decoded.flatten.map SavedRecord.size).sum := by
  induction reads with
  | nil => simp
  | cons first others ih =>
      rw [List.map_cons, List.sum_cons, ih, readFile_length first, List.flatten_cons,
        List.map_append, List.sum_append, List.length_cons]
      ring

/-! ## What the outputs account for -/

/-- Where the records go: the standard output, or the files opened. -/
def outputs (o : Options) (es : List Event) : List Stream :=
  if o.savefile = some ['-'] then [.stdout] else (List.range (openings es)).map .file

/-- Every output reads back as a header and whole records, and the records, output
after output, are those of the frames. -/
def Accounts (host : ByteOrder) (o : Options) (env : Setup) (ts : List Turn) : Prop :=
  ∃ decoded : List (List SavedRecord),
    List.Forall₂ (fun fp records =>
        readFile o.fileFormat (writtenTo fp (main host o env ts).trace) = some records)
      (outputs o (main host o env ts).trace) decoded ∧
    decoded.flatten = (arrivals o ts).map fun a => savedRecord o a.frame

/-- What a run hands to `fwrite` reads back as the frames. -/
structure Hands (host : ByteOrder) (o : Options) (env : Setup) (ts : List Turn)
    (decoded : List (List SavedRecord)) : Prop where
  reads : List.Forall₂ (fun fp records =>
      readFile o.fileFormat (askedOf fp (main host o env ts).trace) = some records)
    (outputs o (main host o env ts).trace) decoded
  frames : decoded.flatten = (arrivals o ts).map fun a => savedRecord o a.frame
  others : ∀ fp ∉ outputs o (main host o env ts).trace,
    askedOf fp (main host o env ts).trace = []

section

variable {host : ByteOrder} {o : Options} {env : Setup} {ts : List Turn}

/-- The outputs account for the frames exactly when every write was complete. -/
theorem Hands.accounts_iff {handed : List (List SavedRecord)} (hands : Hands host o env ts handed) :
    Accounts host o env ts ↔ Complete (main host o env ts).trace := by
  have parts := main_storesParts host o env ts
  constructor
  · rintro ⟨decoded, reads, frames⟩
    have same : ((outputs o (main host o env ts).trace).map fun fp =>
          (writtenTo fp (main host o env ts).trace).length).sum =
        ((outputs o (main host o env ts).trace).map fun fp =>
          (askedOf fp (main host o env ts).trace).length).sum := by
      rw [length_of_reads reads, length_of_reads hands.reads, frames, hands.frames]
    have full := eq_of_sum_map_eq parts.length_le same
    apply parts.complete_of_length
    intro fp
    by_cases output : fp ∈ outputs o (main host o env ts).trace
    · exact (full fp output).ge
    · rw [hands.others fp output]
      exact Nat.zero_le _
  · intro complete
    refine ⟨handed, ?_, hands.frames⟩
    simp only [complete.written_eq]
    exact hands.reads

/-- What the files of a run read back as when nothing falls short. -/
def windowRecords (o : Options) (env : Setup) (ts : List Turn) : List (List SavedRecord) :=
  (runWindows o env ts).map fun v => v.items.map fun a => savedRecord o a.frame

theorem hands_named {name : CStr} (named : o.savefile = some name) (notStdout : name ≠ ['-'])
    (nonneg : 0 ≤ o.snaplen.toInt) (clean : (main host o env ts).exit = 0) :
    Hands host o env ts (windowRecords o env ts) := by
  obtain ⟨-, acquires, -⟩ := acquires_of_exit host ts clean
  obtain ⟨lives, contents, unopened⟩ :=
    main_recorded named notStdout acquires (rotates_of_exit host ts named notStdout clean)
  have files : openings (main host o env ts).trace = (runWindows o env ts).length := by
    rw [← openings_lifecycle, lives, openings_lives]
  have directs : outputs o (main host o env ts).trace =
      (List.range (runWindows o env ts).length).map .file := by
    rw [outputs, if_neg (by simpa [named] using notStdout), files]
  refine ⟨?_, ?_, ?_⟩
  · rw [directs, List.forall₂_map_left_iff, List.forall₂_iff_get]
    refine ⟨by simp [windowRecords], ?_⟩
    intro k inside inside'
    have inside : k < (runWindows o env ts).length := by simpa using inside
    have window : (runWindows o env ts)[k]? = some (runWindows o env ts)[k] :=
      List.getElem?_eq_getElem inside
    simp only [List.get_eq_getElem, List.getElem_range]
    rw [contents k _ window, readFile_fileBytes host o nonneg, List.map_map]
    simp [windowRecords]
  · rw [windowRecords, ← List.flatMap_def, ← Windows.split_items env.now (arrivals o ts),
      List.map_flatMap]
    rfl
  · intro fp other
    refine unopened fp fun k inside same => other ?_
    rw [directs, same]
    exact List.mem_map_of_mem (List.mem_range.2 inside)

theorem hands_stdout (stdout : o.savefile = some ['-']) (format : o.fileFormat = .erf)
    (beforeEpoch : 0 < o.rotateSeconds → ∀ a ∈ arrivals o ts, a.now < 0)
    (nonneg : 0 ≤ o.snaplen.toInt) (clean : (main host o env ts).exit = 0) :
    Hands host o env ts [(arrivals o ts).map fun a => savedRecord o a.frame] := by
  obtain ⟨opens, acquires, -⟩ := acquires_of_exit host ts clean
  have opened := openSavefile_stdout host env stdout
  have saving : State.onStdout.savefp = some .stdout := rfl
  have early : ∀ a ∈ arrivals o ts, ¬ Due o State.onStdout.nextRotationTime a.now :=
    fun a member due => absurd due.2 (Int.not_le.2 (beforeEpoch due.1 a member))
  obtain ⟨goes, -, -, asks, -⟩ := capture_steady host saving early
  have asked : ∀ fp, askedOf fp (main host o env ts).trace =
      if Stream.stdout = fp then (arrivals o ts).flatMap fun a => (recordOf host o a.frame).bytes
      else [] := by
    intro fp
    rw [main_captures host ts opens acquires]
    simp only [opened, goes, if_true, Run.trace, askedOf_append, asks,
      (idle_acquire o env).1.asks, (idle_leaveLoop o env _).asks, List.nil_append, List.append_nil]
  have directs : outputs o (main host o env ts).trace = [.stdout] := if_pos stdout
  refine ⟨?_, by simp, ?_⟩
  · rw [directs]
    refine .cons ?_ .nil
    have headless : fileBytes host o ((arrivals o ts).map Arrival.frame) =
        (arrivals o ts).flatMap fun a => (recordOf host o a.frame).bytes := by
      simp [fileBytes, fileHeader, format, Written.bytes, List.flatMap_map]
    rw [asked, if_pos rfl, ← headless, readFile_fileBytes host o nonneg, List.map_map]
    rfl
  · intro fp other
    rw [directs] at other
    rw [asked, if_neg (by simpa [eq_comm] using other)]

end

/-! ## The program does not look at its writes -/

def RotateEnv.storing (writes : Writes) (env : RotateEnv) : RotateEnv := { env with writes }

/-- The same turn, with other results of its writes. -/
def Turn.storing (writes : Writes) (t : Turn) : Turn :=
  { t with rotate := t.rotate.storing writes, writes }

def Setup.storing (writes : Writes) (env : Setup) : Setup :=
  { env with rotate := env.rotate.storing writes }

section

variable (host : ByteOrder) (o : Options) (writes : Writes)

theorem rotateFile_storing (savefile : CStr) (env : RotateEnv) (st : State) :
    (rotateFile host o savefile (env.storing writes) st).state =
        (rotateFile host o savefile env st).state ∧
      (rotateFile host o savefile (env.storing writes) st).ok =
        (rotateFile host o savefile env st).ok := by
  have dir : ensureDir (outDir savefile o.repoDir) (env.storing writes) =
      ensureDir (outDir savefile o.repoDir) env := rfl
  have creates : (env.storing writes).fopen = env.fopen := rfl
  simp only [rotateFile, dir, creates]
  split_ifs <;> exact ⟨rfl, rfl⟩

theorem turn_storing (t : Turn) (st : State) :
    (turn host o (t.storing writes) st).state = (turn host o t st).state ∧
      (turn host o (t.storing writes) st).ok = (turn host o t st).ok := by
  obtain ⟨state, ok⟩ := rotateFile_storing host o writes o.name t.rotate st
  have rotating : (rotateIfDue host o (t.storing writes) st).state = (rotateIfDue host o t st).state ∧
      (rotateIfDue host o (t.storing writes) st).ok = (rotateIfDue host o t st).ok := by
    have now : (t.storing writes).now = t.now := rfl
    have rotate : (t.storing writes).rotate = t.rotate.storing writes := rfl
    simp only [rotateIfDue, now, rotate]
    split
    · exact ⟨by rw [state, ok], ok⟩
    · exact ⟨rfl, rfl⟩
  have saving (fp : Stream) (st : State) :
      (saveFrame host o (t.storing writes) fp st).state = (saveFrame host o t fp st).state := rfl
  have logging : (logFrame host o (t.storing writes) st).state = (logFrame host o t st).state ∧
      (logFrame host o (t.storing writes) st).ok = (logFrame host o t st).ok := by
    simp only [logFrame, rotating.1, rotating.2]
    split
    · exact ⟨by rw [saving], rfl⟩
    · exact rotating
  have size : (t.storing writes).rxSize = t.rxSize := rfl
  have status : (t.storing writes).status = t.status := rfl
  simp only [turn, size, status]
  split_ifs <;> simp_all

theorem capture_storing (ts : List Turn) (st : State) :
    (capture host o st (ts.map (Turn.storing writes))).ok = (capture host o st ts).ok := by
  induction ts generalizing st with
  | nil => rfl
  | cons t ts ih =>
      obtain ⟨state, ok⟩ := turn_storing host o writes t st
      rw [List.map_cons]
      cases one : (turn host o t st).ok with
      | true =>
          rw [one] at ok
          rw [capture_goesOn host ok, capture_goesOn host one, state]
          exact ih _
      | false =>
          rw [one] at ok
          rw [capture_stops host ok, capture_stops host one, ok, one]

theorem openSavefile_storing (env : Setup) :
    (openSavefile host o (env.storing writes)).state = (openSavefile host o env).state ∧
      (openSavefile host o (env.storing writes)).ok = (openSavefile host o env).ok := by
  simp only [openSavefile]
  split
  · exact ⟨rfl, rfl⟩
  · split
    · exact ⟨rfl, rfl⟩
    · obtain ⟨state, ok⟩ := rotateFile_storing host o writes _ env.rotate .initial
      have rotate : (env.storing writes).rotate = env.rotate.storing writes := rfl
      have now : (env.storing writes).now = env.now := rfl
      rw [rotate, now, state, ok]
      exact ⟨rfl, rfl⟩

/-- The exit status is the same whatever the writes store. -/
theorem main_exit_storing (env : Setup) (ts : List Turn) :
    (main host o (env.storing writes) (ts.map (Turn.storing writes))).exit =
      (main host o env ts).exit := by
  obtain ⟨state, ok⟩ := openSavefile_storing host o writes env
  have handle : (env.storing writes).acquireHandle = env.acquireHandle := rfl
  have rx : (env.storing writes).acquireRx = env.acquireRx := rfl
  have filters : (env.storing writes).applyFilters = env.applyFilters := rfl
  have loop := capture_storing host o writes ts (openSavefile host o env).state
  simp only [main, state, ok, handle, rx, filters, loop]
  split_ifs <;> rfl

end

/-- `-w` is given, and what it names can hold the capture: a file, or the standard
output in ERF with no rotation due. -/
def HasOutput (o : Options) (ts : List Turn) : Prop :=
  ∃ name, o.savefile = some name ∧
    (name = ['-'] →
      o.fileFormat = .erf ∧ (0 < o.rotateSeconds → ∀ a ∈ arrivals o ts, a.now < 0))

/-- **What holds of short writes.**  The exit status does not depend on what the writes
store.  A capture either exits with a failure, or its outputs account for all frames
exactly when every write was complete. -/
theorem main_shortWrites {host : ByteOrder} {o : Options} {ts : List Turn}
    (output : HasOutput o ts) (nonneg : 0 ≤ o.snaplen.toInt) (env : Setup) :
    (∀ writes, (main host o (env.storing writes) (ts.map (Turn.storing writes))).exit =
        (main host o env ts).exit) ∧
      ((main host o env ts).exit ≠ 0 ∨
        (Accounts host o env ts ↔ Complete (main host o env ts).trace)) := by
  refine ⟨fun writes => main_exit_storing host o writes env ts, ?_⟩
  by_cases clean : (main host o env ts).exit = 0
  · refine Or.inr ?_
    obtain ⟨name, given, stdout⟩ := output
    by_cases same : name = ['-']
    · obtain ⟨format, beforeEpoch⟩ := stdout same
      exact (hands_stdout (same ▸ given) format beforeEpoch nonneg clean).accounts_iff
    · exact (hands_named given same nonneg clean).accounts_iff
  · exact Or.inl clean

/-- One complete frame and one that is cut short. -/
theorem main_shortWrites_two :
    let ts := [Poles.frame 3, (Poles.frame 4).storing fun _ => some 3]
    (∀ writes, (main .big Poles.options (Poles.setup.storing writes)
          (ts.map (Turn.storing writes))).exit =
        (main .big Poles.options Poles.setup ts).exit) ∧
      ((main .big Poles.options Poles.setup ts).exit ≠ 0 ∨
        (Accounts .big Poles.options Poles.setup ts ↔
          Complete (main .big Poles.options Poles.setup ts).trace)) :=
  main_shortWrites ⟨['a'], rfl, by decide⟩ (by decide) Poles.setup

/-- The disk takes three bytes of a record header: the run exits with 0, and the file
does not read back. -/
theorem torn_record_kept :
    ¬ ∀ (host : ByteOrder) (o : Options) (env : Setup) (ts : List Turn), o.savefile ≠ none →
      (main host o env ts).exit ≠ 0 ∨
        ∀ fp ∈ outputs o (main host o env ts).trace,
          (readFile o.fileFormat (writtenTo fp (main host o env ts).trace)).isSome := by
  intro intact
  rcases intact .little Poles.options Poles.setup [(Poles.frame 4).storing fun _ => some 3]
    (by decide) with fails | reads
  · exact fails (by decide)
  · exact absurd (reads (.file 0) (by decide)) (by decide)

end ExanicCapture.Capture
