/-
# Capture.Rotation -- rotation loses and duplicates nothing

The program keeps `savefp`, `file_no` and `next_rotation_time`; what it is for is a
sequence of frames cut into windows of `-G` seconds, one file a window
(`Theory.Windows`).  `Recorded` ties the two together: which files have been opened
and closed so far, what each was given, and what the three variables say.  Every
turn that goes well keeps it (`turn_recorded`), so every run does
(`capture_recorded`), and the claims about files are those about windows.
-/
import ExanicCapture.Capture.Trace
import ExanicCapture.Theory.Windows
import Mathlib.Data.List.Nodup

namespace ExanicCapture.Capture

set_option autoImplicit false

open Theory Save

/-- The index of the `k`-th file, counted from 0. -/
def fileIndex (k : ℕ) : Int32 := .ofNat (k + 1)

/-- The opening of the `k`-th file. -/
def fileOpening (o : Options) (k : ℕ) : Event :=
  .fopen k (fileIndex k) (rotatedPath o.name o.repoDir o.fileFormat (fileIndex k))

/-- The `k`-th file is opened, and closed again. -/
def fileLife (o : Options) (k : ℕ) : List Event :=
  [fileOpening o k, .fclose (.file k)]

/-- The frames are saved in these windows: the file of a window has been given its
header and its frames, the closed windows' files are closed, and the variables of the
program stand at the last one. -/
structure Recorded (host : ByteOrder) (o : Options) (trace : List Event) (st : State)
    (w : Windows Arrival) : Prop where
  savefp : st.savefp = some (.file w.closed.length)
  opened : st.opened = w.closed.length + 1
  fileNo : st.fileNo = fileIndex w.closed.length
  next : 0 < o.rotateSeconds → st.nextRotationTime = w.current.since + o.rotateSeconds.toNat
  lives : lifecycle trace =
    (List.range w.closed.length).flatMap (fileLife o) ++ [fileOpening o w.closed.length]
  contents : ∀ k v, w.all[k]? = some v →
    askedOf (.file k) trace = fileBytes host o (v.items.map Arrival.frame)
  fresh : ∀ fp, (∀ k ≤ w.closed.length, fp ≠ .file k) → askedOf fp trace = []

section

variable {host : ByteOrder} {o : Options} {trace es : List Event} {st st' : State}
  {w : Windows Arrival} {a : Arrival}

theorem fileIndex_succ (k : ℕ) : fileIndex k + 1 = fileIndex (k + 1) :=
  (Int32.ofNat_add (k + 1) 1).symm

theorem fileBytes_concat (frames : List CapturedFrame) (f : CapturedFrame) :
    fileBytes host o (frames ++ [f]) = fileBytes host o frames ++ (recordOf host o f).bytes := by
  simp [fileBytes]

theorem fileBytes_nil : fileBytes host o [] = (fileHeader host o).bytes := by
  simp [fileBytes]

namespace Recorded

/-- A frame goes into the open file. -/
theorem push (recorded : Recorded host o trace st w) (same : lifecycle es = [])
    (given : ∀ fp, askedOf fp es =
      if .file w.closed.length = fp then (recordOf host o a.frame).bytes else []) :
    Recorded host o (trace ++ es) st (w.push a) where
  savefp := recorded.savefp
  opened := recorded.opened
  fileNo := recorded.fileNo
  next := recorded.next
  lives := by
    rw [lifecycle_append, same, List.append_nil]
    exact recorded.lives
  contents := by
    intro k v found
    rw [askedOf_append, given]
    rcases Windows.all_getElem?.1 found with old | ⟨last, rfl⟩
    · have inside : k < w.closed.length := (List.getElem?_eq_some_iff.1 old).1
      have before := recorded.contents k v (Windows.all_getElem?.2 (Or.inl old))
      have other : Stream.file w.closed.length ≠ .file k := by
        simpa using Nat.ne_of_gt inside
      rw [if_neg other, List.append_nil, before]
    · have last : k = w.closed.length := last
      have before := recorded.contents k _ (Windows.all_getElem?.2 (Or.inr ⟨last, rfl⟩))
      rw [before, if_pos (congrArg Stream.file last.symm), Windows.push, List.map_append, List.map_singleton,
        fileBytes_concat]
  fresh := by
    intro fp unopened
    have unopened : ∀ k ≤ w.closed.length, fp ≠ .file k := unopened
    rw [askedOf_append, given, if_neg (unopened _ (Nat.le_refl _)).symm, List.append_nil]
    exact recorded.fresh fp unopened

/-- The open file is closed, and the next one opened. -/
theorem rotate (recorded : Recorded host o trace st w) {now : Int}
    (turned : lifecycle es =
      [.fclose (.file w.closed.length), fileOpening o (w.closed.length + 1)])
    (given : ∀ fp, askedOf fp es =
      if .file (w.closed.length + 1) = fp then (fileHeader host o).bytes else [])
    (savefp : st'.savefp = some (.file (w.closed.length + 1)))
    (opened : st'.opened = w.closed.length + 2)
    (fileNo : st'.fileNo = fileIndex (w.closed.length + 1))
    (next : st'.nextRotationTime = now + o.rotateSeconds.toNat) :
    Recorded host o (trace ++ es) st' (w.next now) := by
  have length : (w.next now).closed.length = w.closed.length + 1 := by
    simp [Windows.next, Windows.all]
  refine ⟨length ▸ savefp, length ▸ opened, length ▸ fileNo, fun _ => next, ?_, ?_, ?_⟩
  · rw [lifecycle_append, recorded.lives, turned, length, List.range_succ, List.flatMap_append]
    simp [fileLife]
  · intro k v found
    rw [askedOf_append, given]
    rcases Windows.all_getElem?.1 found with old | ⟨rfl, rfl⟩
    · have inside := (List.getElem?_eq_some_iff.1 old).1
      rw [length] at inside
      have other : Stream.file (w.closed.length + 1) ≠ .file k := by
        simpa using Nat.ne_of_gt inside
      rw [if_neg other, List.append_nil, recorded.contents k v old]
    · have unopened : ∀ k ≤ w.closed.length, Stream.file (w.closed.length + 1) ≠ .file k := by
        intro k inside same
        cases same
        omega
      rw [length, if_pos rfl, recorded.fresh _ unopened, List.nil_append]
      exact fileBytes_nil.symm
  · intro fp unopened
    rw [length] at unopened
    rw [askedOf_append, given, if_neg (unopened _ (Nat.le_refl _)).symm, List.append_nil]
    exact recorded.fresh fp fun k inside => unopened k (by omega)

/-- Nothing happens to the files. -/
theorem quiet (recorded : Recorded host o trace st w) (same : lifecycle es = [])
    (nothing : ∀ fp, askedOf fp es = []) : Recorded host o (trace ++ es) st w where
  savefp := recorded.savefp
  opened := recorded.opened
  fileNo := recorded.fileNo
  next := recorded.next
  lives := by
    rw [lifecycle_append, same, List.append_nil]
    exact recorded.lives
  contents := by
    intro k v found
    rw [askedOf_append, nothing, List.append_nil, recorded.contents k v found]
  fresh := by
    intro fp unopened
    rw [askedOf_append, nothing, List.append_nil, recorded.fresh fp unopened]

theorem due_iff (recorded : Recorded host o trace st w) (now : Int) :
    Due o st.nextRotationTime now ↔ w.Due o.rotateSeconds.toNat now := by
  have positive : 0 < o.rotateSeconds ↔ 0 < o.rotateSeconds.toNat := UInt32.lt_iff_toNat_lt
  constructor
  · rintro ⟨rotates, due⟩
    exact ⟨positive.1 rotates, recorded.next rotates ▸ due⟩
  · rintro ⟨rotates, due⟩
    exact ⟨positive.2 rotates, (recorded.next (positive.2 rotates)).symm ▸ due⟩

end Recorded

/-! ## One turn, and all turns -/

/-- The windows after a turn. -/
def windowsAfter (o : Options) (t : Turn) (w : Windows Arrival) : Windows Arrival :=
  match t.arrival o with
  | some a => w.add o.rotateSeconds.toNat Arrival.now a
  | none => w

theorem turn_recorded {t : Turn} (recorded : Recorded host o trace st w)
    (succeeds : Rotates (turn host o t st).events) :
    (turn host o t st).ok = true ∧
      Recorded host o (trace ++ (turn host o t st).events) (turn host o t st).state
        (windowsAfter o t w) := by
  have savefp := recorded.savefp
  have opened := recorded.opened
  have fileNo := recorded.fileNo
  cases arrives : t.arrival o with
  | none =>
      obtain ⟨counters, does⟩ := turn_quiet host savefp arrives
      have same : windowsAfter o t w = w := by simp only [windowsAfter, arrives]
      rw [does, same]
      have kept : Recorded host o (trace ++ [.receiveFrame]) st w :=
        recorded.quiet rfl fun _ => rfl
      exact ⟨rfl, kept.savefp, kept.opened, kept.fileNo, kept.next, kept.lives, kept.contents,
        kept.fresh⟩
  | some a =>
      by_cases due : Due o st.nextRotationTime a.now
      · cases can : canOpen o o.name (st.fileNo + 1) t.rotate with
        | false =>
            obtain ⟨error, does⟩ := turn_stops host savefp arrives due can
            exact absurd succeeds (not_rotates error (by simp [does]))
        | true =>
            obtain ⟨fileSize, counters, does⟩ := turn_rotates host savefp arrives due can
            have turned : windowsAfter o t w = (w.next a.now).push a := by
              simp only [windowsAfter, arrives, Windows.add, if_pos ((recorded.due_iff _).1 due)]
            rw [does, turned, ← List.append_assoc]
            rw [opened, fileNo, fileIndex_succ]
            refine ⟨rfl, Recorded.push (Recorded.rotate recorded ?_ ?_ rfl rfl rfl rfl) ?_ ?_⟩
            · simp [fileOpening]
            · simp [Written.bytes]
            · simp
            · simp [Windows.next, Windows.all]
      · obtain ⟨fileSize, counters, does⟩ := turn_saves host savefp arrives due
        have stays : windowsAfter o t w = w.push a := by
          simp only [windowsAfter, arrives, Windows.add, if_neg (mt (recorded.due_iff _).2 due)]
        have kept : Recorded host o (trace ++ (receiving o ++
            recording host o (.file w.closed.length) t a)) st (w.push a) :=
          recorded.push (by simp) (by simp)
        rw [does, stays]
        exact ⟨rfl, kept.savefp, kept.opened, kept.fileNo, kept.next, kept.lives, kept.contents,
          kept.fresh⟩

theorem capture_recorded {ts : List Turn} (recorded : Recorded host o trace st w)
    (succeeds : Rotates (capture host o st ts).events) :
    (capture host o st ts).ok = true ∧
      Recorded host o (trace ++ (capture host o st ts).events) (capture host o st ts).state
        ((arrivals o ts).foldl (Windows.add o.rotateSeconds.toNat Arrival.now) w) := by
  induction ts generalizing trace st w with
  | nil =>
      refine ⟨rfl, ?_⟩
      rw [capture, List.append_nil]
      exact recorded
  | cons t ts ih =>
      have first : Rotates (turn host o t st).events := by
        cases goes : (turn host o t st).ok with
        | true =>
            rw [capture_goesOn host goes] at succeeds
            exact (rotates_append.1 succeeds).1
        | false =>
            rw [capture_stops host goes] at succeeds
            exact succeeds
      obtain ⟨goes, after⟩ := turn_recorded recorded first
      have others : (arrivals o (t :: ts)).foldl (Windows.add o.rotateSeconds.toNat Arrival.now) w =
          (arrivals o ts).foldl (Windows.add o.rotateSeconds.toNat Arrival.now)
            (windowsAfter o t w) := by
        rw [arrivals_cons, List.foldl_append]
        unfold windowsAfter
        cases t.arrival o <;> rfl
      rw [capture_goesOn host goes] at succeeds ⊢
      rw [others, ← List.append_assoc]
      exact ih after (rotates_append.1 succeeds).2

/-! ## A whole run -/

theorem opening_recorded {env : Setup} {name : CStr} (named : o.savefile = some name)
    (notStdout : name ≠ ['-'])
    (succeeds : Rotates (openSavefile host o env).events) :
    (openSavefile host o env).ok = true ∧
      Recorded host o (openSavefile host o env).events (openSavefile host o env).state
        { closed := [], current := { since := env.now, items := [] } } := by
  have name_eq : o.name = name := by simp [Options.name, named]
  cases can : canOpen o name 1 env.rotate with
  | false =>
      obtain ⟨error, fails, -⟩ := openSavefile_refused host named notStdout can
      exact absurd succeeds (not_rotates error (by simp [fails]))
  | true =>
      rw [openSavefile_named host named notStdout can]
      refine ⟨rfl, rfl, rfl, rfl, fun rotates => if_pos rotates, ?_, ?_, ?_⟩
      · simp [fileOpening, fileIndex, name_eq]
      · intro k v found
        rcases Windows.all_getElem?.1 found with old | ⟨rfl, rfl⟩
        · cases old
        · simp [fileBytes_nil, Written.bytes]
      · intro fp unopened
        simp [(unopened 0 (Nat.le_refl 0)).symm]

/-- The windows of a run. -/
def runWindows (o : Options) (env : Setup) (ts : List Turn) : List (Window Arrival) :=
  (Windows.split o.rotateSeconds.toNat Arrival.now env.now (arrivals o ts)).all

/-- A run whose rotations all succeed opens and closes one file a window, and hands
each its header and its frames. -/
theorem main_recorded {env : Setup} {ts : List Turn} {name : CStr} (named : o.savefile = some name)
    (notStdout : name ≠ ['-']) (acquires : env.Acquires o)
    (succeeds : Rotates (main host o env ts).trace) :
    lifecycle (main host o env ts).trace =
        (List.range (runWindows o env ts).length).flatMap (fileLife o) ∧
      (∀ k v, (runWindows o env ts)[k]? = some v →
        askedOf (.file k) (main host o env ts).trace =
          fileBytes host o (v.items.map Arrival.frame)) ∧
      ∀ fp, (∀ k < (runWindows o env ts).length, fp ≠ .file k) →
        askedOf fp (main host o env ts).trace = [] := by
  have opening : Rotates (openSavefile host o env).events := by
    rw [← main_opening host ts]
    exact (rotates_append.1 (rotates_append.1 (rotates_append.1 succeeds).1).1).1
  obtain ⟨opens, opened⟩ := opening_recorded named notStdout opening
  obtain ⟨acquiring, noLife⟩ := idle_acquire o env
  have does := main_captures host ts opens acquires
  have looping : Rotates (capture host o (openSavefile host o env).state ts).events := by
    rw [does] at succeeds
    exact (rotates_append.1 (rotates_append.1 succeeds).1).2
  obtain ⟨goes, recorded⟩ := capture_recorded (opened.quiet noLife acquiring.asks) looping
  have savefp := recorded.savefp
  have leaving := idle_leaveLoop o env (capture host o (openSavefile host o env).state ts).state
  have leaves : lifecycle (leaveLoop o env (capture host o (openSavefile host o env).state ts).state)
      = [.fclose (.file (Windows.split o.rotateSeconds.toNat Arrival.now env.now
          (arrivals o ts)).closed.length)] := by
    unfold leaveLoop fcloseSavefp
    rw [savefp]
    split <;> rfl
  rw [does]
  simp only [goes, if_true, Run.trace, lifecycle_append, askedOf_append, leaves, leaving.asks]
  have length : (runWindows o env ts).length =
      (Windows.split o.rotateSeconds.toNat Arrival.now env.now (arrivals o ts)).closed.length + 1 := by
    simp [runWindows, Windows.all]
  refine ⟨?_, fun k v found => ?_, fun fp unopened => ?_⟩
  · have lives := recorded.lives
    rw [lifecycle_append, lifecycle_append] at lives
    rw [lives, length, List.range_succ, List.flatMap_append]
    simp [fileLife]
    rfl
  · have contents := recorded.contents k v found
    rw [askedOf_append, askedOf_append] at contents
    rw [List.append_nil]
    exact contents
  · rw [length] at unopened
    have fresh := recorded.fresh fp fun k inside => unopened k (Nat.lt_succ_of_le inside)
    rw [askedOf_append, askedOf_append] at fresh
    rw [List.append_nil]
    exact fresh

theorem openings_lives (n : ℕ) : openings ((List.range n).flatMap (fileLife o)) = n := by
  induction n with
  | zero => rfl
  | succ n ih =>
      rw [List.range_succ, List.flatMap_append, openings, List.countP_append]
      exact congrArg (· + 1) ih

theorem fileIndex_toInt {k : ℕ} (few : k + 1 < 2 ^ 31) : (fileIndex k).toInt = k + 1 :=
  Int32.toInt_ofNat_of_lt few

theorem paths_nodup {n : ℕ} (few : n < 2 ^ 31) :
    ((List.range n).map fun k =>
      rotatedPath o.name o.repoDir o.fileFormat (fileIndex k)).Nodup := by
  refine List.Nodup.map_on (fun i inside j inside' same => ?_) List.nodup_range
  have index := congrArg Int32.toInt (rotatedPath_injective _ _ _ same)
  have := List.mem_range.1 inside
  have := List.mem_range.1 inside'
  rw [fileIndex_toInt (by omega), fileIndex_toInt (by omega)] at index
  omega

/-- The files of a run hold its frames, window by window.  The first window was opened
at the reading after the first file was opened, a later one at the reading in front of
its first frame, which is when `next_rotation_time` was set. -/
structure KeepsEveryFrame (host : ByteOrder) (o : Options) (env : Setup) (ts : List Turn)
    (trace : List Event) (windows : List (Window Arrival)) : Prop where
  lives : lifecycle trace = (List.range windows.length).flatMap (fileLife o)
  indices : ∀ k < windows.length, (fileIndex k).toInt = k + 1
  paths : ((List.range windows.length).map fun k =>
    rotatedPath o.name o.repoDir o.fileFormat (fileIndex k)).Nodup
  contents : ∀ k v, windows[k]? = some v →
    writtenTo (.file k) trace = fileBytes host o (v.items.map Arrival.frame)
  decodes : ∀ k v, windows[k]? = some v →
    readFile o.fileFormat (writtenTo (.file k) trace) =
      some (v.items.map fun a => savedRecord o a.frame)
  frames : windows.flatMap Window.items = arrivals o ts
  nonempty : ∀ v ∈ windows.tail, v.items ≠ []
  first : windows.head?.map Window.since = some env.now
  later : ∀ v ∈ windows.tail, v.items.head?.map Arrival.now = some v.since
  within : 0 < o.rotateSeconds →
    (env.now :: (arrivals o ts).map Arrival.now).Pairwise (· ≤ ·) →
    ∀ v ∈ windows, ∀ a ∈ v.items, v.since ≤ a.now ∧ a.now < v.since + o.rotateSeconds.toNat

/-- **Rotation loses and duplicates nothing.** -/
theorem main_keepsEveryFrame {env : Setup} {ts : List Turn} {name : CStr}
    (named : o.savefile = some name) (notStdout : name ≠ ['-']) (nonneg : 0 ≤ o.snaplen.toInt)
    (acquires : env.Acquires o)
    (succeeds : Rotates (main host o env ts).trace)
    (complete : Complete (main host o env ts).trace)
    (few : openings (main host o env ts).trace < 2 ^ 31) :
    ∃ windows, KeepsEveryFrame host o env ts (main host o env ts).trace windows := by
  obtain ⟨lives, contents, -⟩ := main_recorded named notStdout acquires succeeds
  have length : (runWindows o env ts).length < 2 ^ 31 := by
    rw [← openings_lifecycle, lives, openings_lives] at few
    exact few
  have written : ∀ k v, (runWindows o env ts)[k]? = some v →
      writtenTo (.file k) (main host o env ts).trace =
        fileBytes host o (v.items.map Arrival.frame) := by
    intro k v found
    rw [complete.written_eq, contents k v found]
  have later : ∀ v ∈ (runWindows o env ts).tail, v.items.head?.map Arrival.now = some v.since :=
    Windows.split_laterBegin env.now (arrivals o ts)
  refine ⟨runWindows o env ts, lives, fun k inside => ?_, paths_nodup length, written, ?_,
    Windows.split_items _ _, ?_, Windows.split_first _ _, later, ?_⟩
  · exact fileIndex_toInt (by omega)
  · intro k v found
    rw [written k v found, readFile_fileBytes host o nonneg, List.map_map]
    rfl
  · intro v member empty
    have begins := later v member
    rw [empty] at begins
    cases begins
  · intro rotates monotone v member
    exact Windows.split_within (UInt32.lt_iff_toNat_lt.1 rotates) monotone v member

end

/-- Two frames, and a rotation between them. -/
theorem main_keepsEveryFrame_two :
    ∃ windows, KeepsEveryFrame .little Poles.options Poles.setup [Poles.frame 3, Poles.frame 12]
      (main .little Poles.options Poles.setup [Poles.frame 3, Poles.frame 12]).trace windows :=
  main_keepsEveryFrame rfl (by decide) (by decide) ⟨rfl, rfl, fun _ => rfl⟩ (by decide)
    (by decide) (by decide)

end ExanicCapture.Capture
