/-
# Capture.NamedPath -- the name asked for and the name opened

`AskedName` takes a save-file argument apart as it is meant: the directory in front
of the last `/`, and the stem and the extension of the last component.  The program
does the same with three buffers, of 2048, 2048 and 32 bytes, and keeps of each part
what goes into its buffer.  The length check of `rotate_file` looks at the joined name
only, so a part that was cut short passes it.

`rotatedPath_eq_cutPath` says that the name is made of the cut parts, and
`opensAsked_iff` when that is the name asked for: when every part fits its buffer,
unless the file is refused before it is opened.
-/
import ExanicCapture.Capture.Trace

namespace ExanicCapture.Capture

set_option autoImplicit false

open Theory

/-! ## The name asked for -/

/-- `s` is `front`, the last `c` of `s`, and `back`. -/
def SplitsAtLast (c : Char) (s front back : CStr) : Prop := s = front ++ c :: back ∧ c ∉ back

/-- The directory of a name without one; an empty `-R` is none. -/
def defaultDir (repoDir : Option CStr) : CStr := (repoDir.filter (· ≠ [])).getD ['.']

/-- The parts of the name asked for.  A leading `.` does not begin an extension. -/
structure AskedName (savefile : CStr) (repoDir : Option CStr) (format : FileFormat) where
  dir : CStr
  name : CStr
  stem : CStr
  ext : CStr
  located : SplitsAtLast '/' savefile dir name ∨
    '/' ∉ savefile ∧ name = savefile ∧ dir = defaultDir repoDir
  named : SplitsAtLast '.' name stem ext ∧ '.' ∈ name.tail ∨
    '.' ∉ name.tail ∧ stem = name ∧ ext = format.extension

theorem splitLast_eq_none_iff {c : Char} {s : CStr} : splitLast c s = none ↔ c ∉ s := by
  induction s with
  | nil => simp [splitLast]
  | cons x s ih =>
      rw [splitLast]
      cases later : splitLast c s with
      | some parts => simp [← ih, later]
      | none =>
          have absent := ih.1 later
          by_cases here : x = c
          · simp [here]
          · simp [here, Ne.symm here, absent]

theorem SplitsAtLast.splitLast {c : Char} {s front back : CStr}
    (splits : SplitsAtLast c s front back) : splitLast c s = some (front, back) := by
  obtain ⟨rfl, last⟩ := splits
  induction front with
  | nil => simp [Capture.splitLast, splitLast_eq_none_iff.2 last]
  | cons x front ih => simp [Capture.splitLast, ih]

theorem splitsAtLast_of_mem {c : Char} {s : CStr} (member : c ∈ s) :
    ∃ front back, SplitsAtLast c s front back := by
  induction s with
  | nil => cases member
  | cons x s ih =>
      by_cases later : c ∈ s
      · obtain ⟨front, back, rfl, last⟩ := ih later
        exact ⟨x :: front, back, rfl, last⟩
      · rcases List.mem_cons.1 member with rfl | inside
        · exact ⟨[], s, rfl, later⟩
        · exact absurd inside later

/-! ## The parts as the program has them -/

theorem fit_length (size : ℕ) (s : CStr) : (fit size s).length = min (size - 1) s.length := by
  rw [fit, List.length_take]

theorem fit_eq_self {size : ℕ} {s : CStr} (fits : s.length < size) : fit size s = s :=
  List.take_of_length_le (by omega)

section

variable {savefile : CStr} {repoDir : Option CStr} {format : FileFormat}

/-- Every argument has a name. -/
theorem askedName_exists : Nonempty (AskedName savefile repoDir format) := by
  have named : ∀ name : CStr, ∃ stem ext, SplitsAtLast '.' name stem ext ∧ '.' ∈ name.tail ∨
      '.' ∉ name.tail ∧ stem = name ∧ ext = format.extension := by
    intro name
    by_cases inner : '.' ∈ name.tail
    · obtain ⟨stem, ext, splits⟩ := splitsAtLast_of_mem (List.mem_of_mem_tail inner)
      exact ⟨stem, ext, Or.inl ⟨splits, inner⟩⟩
    · exact ⟨name, format.extension, Or.inr ⟨inner, rfl, rfl⟩⟩
  by_cases slash : '/' ∈ savefile
  · obtain ⟨dir, name, splits⟩ := splitsAtLast_of_mem slash
    obtain ⟨stem, ext, parts⟩ := named name
    exact ⟨⟨dir, name, stem, ext, Or.inl splits, parts⟩⟩
  · obtain ⟨stem, ext, parts⟩ := named savefile
    exact ⟨⟨defaultDir repoDir, savefile, stem, ext, Or.inr ⟨slash, rfl, rfl⟩, parts⟩⟩

namespace AskedName

/-- `D/Sn.E`. -/
def path (a : AskedName savefile repoDir format) (idx : Int32) : CStr :=
  a.dir ++ '/' :: a.stem ++ decimal idx ++ '.' :: a.ext

/-- The parts go into their buffers. -/
structure Fits (a : AskedName savefile repoDir format) : Prop where
  dir : a.dir.length < 2048
  stem : a.stem.length < 2048
  ext : a.ext.length < 32

/-- The name made of what goes into the buffers. -/
def cutPath (a : AskedName savefile repoDir format) (idx : Int32) : CStr :=
  fit 2048 a.dir ++ '/' :: fit 2048 a.stem ++ decimal idx ++ '.' :: fit 32 a.ext

variable (a : AskedName savefile repoDir format)

theorem outDir_eq : outDir savefile repoDir = fit 2048 a.dir := by
  unfold outDir
  rcases a.located with splits | ⟨absent, -, dir⟩
  · have member : '/' ∈ savefile := by
      rw [splits.1]
      exact List.mem_append_right _ List.mem_cons_self
    rw [if_pos member, pathDirnameInto, splits.splitLast]
  · rw [if_neg absent, dir]
    cases repoDir with
    | none => rfl
    | some repo => cases repo <;> rfl

theorem pathBasename_eq : pathBasename savefile = a.name := by
  unfold pathBasename
  rcases a.located with splits | ⟨absent, name, -⟩
  · rw [splits.splitLast]
  · rw [splitLast_eq_none_iff.2 absent, name]

theorem splitBaseExt_eq : splitBaseExt a.name 2048 32 format = (fit 2048 a.stem, fit 32 a.ext) := by
  unfold splitBaseExt
  rcases a.named with ⟨splits, inner⟩ | ⟨absent, stem, ext⟩
  · have nonempty : a.stem ≠ [] := by
      intro empty
      rw [splits.1, empty] at inner
      exact splits.2 inner
    simp only [splits.splitLast, if_pos nonempty]
  · rw [stem, ext]
    by_cases dot : '.' ∈ a.name
    · obtain ⟨front, back, splits⟩ := splitsAtLast_of_mem dot
      have leading : front = [] := by
        cases front with
        | nil => rfl
        | cons c front =>
            rw [splits.1] at absent
            exact absurd (List.mem_append_right _ List.mem_cons_self) absent
      simp only [splits.splitLast, leading, ne_eq, not_true_eq_false, if_false]
    · simp only [splitLast_eq_none_iff.2 dot]

theorem rotatedPath_eq_cutPath (idx : Int32) :
    rotatedPath savefile repoDir format idx = a.cutPath idx := by
  rw [rotatedPath, a.pathBasename_eq, a.splitBaseExt_eq, a.outDir_eq, cutPath]

/-- The name opened is the name asked for only if nothing is cut off. -/
theorem cutPath_eq_path_iff (idx : Int32) : a.cutPath idx = a.path idx ↔ a.Fits := by
  constructor
  · intro same
    have length := congrArg List.length same
    simp only [cutPath, path, List.length_append, List.length_cons, fit_length] at length
    exact ⟨by omega, by omega, by omega⟩
  · intro fits
    rw [cutPath, path, fit_eq_self fits.dir, fit_eq_self fits.stem, fit_eq_self fits.ext]

end AskedName

end

/-! ## What `rotate_file` opens -/

/-- The path given to `fopen`, whether it is opened or not. -/
def Event.fopened : Event → Option CStr
  | .fopen _ _ path => some path
  | .rotateError (.fopen path) => some path
  | _ => none

/-- The paths given to `fopen`. -/
def fopened (es : List Event) : List CStr := es.filterMap Event.fopened

@[simp] theorem fopened_nil : fopened [] = [] := rfl

@[simp] theorem fopened_cons (e : Event) (es : List Event) :
    fopened (e :: es) = e.fopened.toList ++ fopened es := by
  unfold fopened
  rw [List.filterMap_cons]
  cases e.fopened <;> rfl

@[simp] theorem fopened_append (es fs : List Event) : fopened (es ++ fs) = fopened es ++ fopened fs :=
  List.filterMap_append

@[simp] theorem fopened_fcloseSavefp (st : State) : fopened (fcloseSavefp st) = [] := by
  unfold fcloseSavefp
  split <;> rfl

@[simp] theorem fopened_fwrites (fp : Stream) (writes : Writes) (blocks : List (List UInt8)) :
    fopened (fwrites fp writes blocks) = [] := by
  induction blocks generalizing writes with
  | nil => rfl
  | cons block blocks ih => exact ih _

section

variable {host : ByteOrder} {o : Options} {savefile : CStr} {env : RotateEnv} {st : State}

/-- A call that is not refused before reaches `fopen` with its name. -/
theorem rotateFile_fopened (dir : ensureDir (outDir savefile o.repoDir) env = true)
    (short : (rotatedPath savefile o.repoDir o.fileFormat (st.fileNo + 1)).length <
      fileNameBufSize) :
    fopened (rotateFile host o savefile env st).events =
      [rotatedPath savefile o.repoDir o.fileFormat (st.fileNo + 1)] := by
  have notLong := Nat.not_le.2 short
  by_cases creates : env.fopen = false
  · simp [rotateFile, dir, notLong, creates, Event.fopened]
  · simp [rotateFile, dir, notLong, creates, Event.fopened]

theorem rotateFile_refused
    (refused : ensureDir (outDir savefile o.repoDir) env = false ∨
      fileNameBufSize ≤ (rotatedPath savefile o.repoDir o.fileFormat (st.fileNo + 1)).length) :
    fopened (rotateFile host o savefile env st).events = [] ∧
      (rotateFile host o savefile env st).ok = false := by
  by_cases dir : ensureDir (outDir savefile o.repoDir) env = false
  · simp [rotateFile, dir, Event.fopened]
  · have long := refused.resolve_left dir
    simp [rotateFile, dir, long, Event.fopened]

/-- Whatever reaches `fopen` is the name, and short enough. -/
theorem rotatedPath_of_fopened {path : CStr}
    (opened : path ∈ fopened (rotateFile host o savefile env st).events) :
    path = rotatedPath savefile o.repoDir o.fileFormat (st.fileNo + 1) ∧
      path.length < fileNameBufSize := by
  by_cases refused : ensureDir (outDir savefile o.repoDir) env = false ∨
      fileNameBufSize ≤ (rotatedPath savefile o.repoDir o.fileFormat (st.fileNo + 1)).length
  · rw [(rotateFile_refused refused).1] at opened
    cases opened
  · have dir : ensureDir (outDir savefile o.repoDir) env = true :=
      Bool.eq_true_of_not_eq_false fun refusal => refused (Or.inl refusal)
    have short := Nat.lt_of_not_le fun long => refused (Or.inr long)
    rw [rotateFile_fopened dir short] at opened
    obtain rfl := List.mem_singleton.1 opened
    exact ⟨rfl, short⟩

end

/-- `rotate_file` gives nothing but the name asked for to `fopen`, and fails if a part
of it does not go into its buffer. -/
structure OpensAsked {savefile : CStr} {repoDir : Option CStr} {format : FileFormat}
    (a : AskedName savefile repoDir format) (idx : Int32) (call : Outcome) : Prop where
  exact : ∀ path ∈ fopened call.events, path = a.path idx
  whole : ¬ a.Fits → call.ok = false

/-- The parts and the number, as much of them as goes into the buffers, do not go into
`file_name_buf`. -/
def AskedName.Overlong {savefile : CStr} {repoDir : Option CStr} {format : FileFormat}
    (a : AskedName savefile repoDir format) (idx : Int32) : Prop :=
  fileNameBufSize ≤ min 2047 a.dir.length + 1 + min 2047 a.stem.length + (decimal idx).length + 1 +
    min 31 a.ext.length

theorem AskedName.overlong_iff {savefile : CStr} {repoDir : Option CStr} {format : FileFormat}
    (a : AskedName savefile repoDir format) (idx : Int32) :
    a.Overlong idx ↔ fileNameBufSize ≤ (rotatedPath savefile repoDir format idx).length := by
  have length : (a.cutPath idx).length = min 2047 a.dir.length + 1 + min 2047 a.stem.length +
      (decimal idx).length + 1 + min 31 a.ext.length := by
    simp only [cutPath, List.length_append, List.length_cons, fit_length]
    omega
  rw [a.rotatedPath_eq_cutPath, length]
  exact Iff.rfl

/-- **When the name opened is the name asked for.** -/
theorem opensAsked_iff (host : ByteOrder) (o : Options) (savefile : CStr) (env : RotateEnv)
    (st : State) (a : AskedName savefile o.repoDir o.fileFormat) :
    OpensAsked a (st.fileNo + 1) (rotateFile host o savefile env st) ↔
      a.Fits ∨ ensureDir (fit 2048 a.dir) env = false ∨ a.Overlong (st.fileNo + 1) := by
  rw [a.overlong_iff, ← a.outDir_eq]
  by_cases refused : ensureDir (outDir savefile o.repoDir) env = false ∨
      fileNameBufSize ≤ (rotatedPath savefile o.repoDir o.fileFormat (st.fileNo + 1)).length
  · obtain ⟨nothing, fails⟩ : fopened (rotateFile host o savefile env st).events = [] ∧
        (rotateFile host o savefile env st).ok = false := rotateFile_refused refused
    refine iff_of_true ⟨?_, fun _ => fails⟩ (Or.inr refused)
    rw [nothing]
    intro path member
    cases member
  · have dir : ensureDir (outDir savefile o.repoDir) env = true :=
      Bool.eq_true_of_not_eq_false fun refusal => refused (Or.inl refusal)
    have short := Nat.lt_of_not_le fun long => refused (Or.inr long)
    have reached : fopened (rotateFile host o savefile env st).events =
        [rotatedPath savefile o.repoDir o.fileFormat (st.fileNo + 1)] := rotateFile_fopened dir short
    have same := a.cutPath_eq_path_iff (st.fileNo + 1)
    constructor
    · intro opens
      have exact := opens.exact _ (reached ▸ List.mem_singleton_self _)
      rw [a.rotatedPath_eq_cutPath] at exact
      exact Or.inl (same.1 exact)
    · intro condition
      have fits := condition.resolve_right refused
      refine ⟨?_, fun cut => absurd fits cut⟩
      rw [reached, a.rotatedPath_eq_cutPath, same.2 fits]
      intro path member
      exact List.mem_singleton.1 member

/-! ## Over a whole run -/

section

variable {host : ByteOrder} {o : Options} {path : CStr}

/-- The path is the name of the save file with some number. -/
def IsRotated (o : Options) (path : CStr) : Prop :=
  ∃ idx, path = rotatedPath o.name o.repoDir o.fileFormat idx

theorem isRotated_of_rotateFile {env : RotateEnv} {st : State}
    (opened : path ∈ fopened (rotateFile host o o.name env st).events) : IsRotated o path :=
  ⟨_, (rotatedPath_of_fopened opened).1⟩

theorem fopened_dump (t : Turn) : fopened (dump o t) = [] := by
  unfold dump
  split <;> rfl

theorem fopened_logFrame (t : Turn) (st : State) :
    fopened (logFrame host o t st).events = fopened (rotateIfDue host o t st).events := by
  dsimp only [logFrame]
  split
  · have flushes : ∀ fp, fopened (if o.flush then [.fflush fp] else []) = [] := by
      intro fp
      split <;> rfl
    simp [saveFrame, flushes]
  · rfl

theorem isRotated_of_rotateIfDue {t : Turn} {st : State}
    (opened : path ∈ fopened (rotateIfDue host o t st).events) : IsRotated o path := by
  dsimp only [rotateIfDue] at opened
  split at opened
  · exact isRotated_of_rotateFile opened
  · cases opened

theorem isRotated_of_turn {t : Turn} {st : State}
    (opened : path ∈ fopened (turn host o t st).events) : IsRotated o path := by
  dsimp only [turn] at opened
  split at opened
  · cases opened
  · have clock : fopened (if t.rxSize > 0 ∧ o.hwTstamp = true then [Event.hwTimestamp] else []) =
        [] := by
      split <;> rfl
    simp only [List.cons_append, fopened_cons, fopened_append, clock] at opened
    split at opened
    · rw [fopened_dump] at opened
      cases opened
    · split at opened
      · rw [fopened_logFrame] at opened
        exact isRotated_of_rotateIfDue opened
      · cases opened

theorem isRotated_of_capture {ts : List Turn} {st : State}
    (opened : path ∈ fopened (capture host o st ts).events) : IsRotated o path := by
  induction ts generalizing st with
  | nil => cases opened
  | cons t ts ih =>
      dsimp only [capture] at opened
      split at opened
      · rw [fopened_append] at opened
        rcases List.mem_append.1 opened with now | later
        · exact isRotated_of_turn now
        · exact ih later
      · exact isRotated_of_turn opened

theorem isRotated_of_openSavefile {env : Setup}
    (opened : path ∈ fopened (openSavefile host o env).events) : IsRotated o path := by
  unfold openSavefile at opened
  split at opened
  · cases opened
  · rename_i name given
    have named : o.name = name := by rw [Options.name, given, Option.getD_some]
    dsimp only at opened
    split at opened
    · cases opened
    · rw [← named] at opened
      exact isRotated_of_rotateFile opened

theorem fopened_acquire (env : Setup) : fopened (acquire o env) = [] := by
  unfold acquire
  split <;> split <;> split <;> rfl

theorem fopened_errApplyFilters (st : State) : fopened (errApplyFilters st) = [] := by
  simp [errApplyFilters, errAcquireRx, errAcquireHandle, Event.fopened]

theorem fopened_leaveLoop (env : Setup) (st : State) : fopened (leaveLoop o env st) = [] := by
  unfold leaveLoop
  split <;> simp [Event.fopened]

/-- Files are opened before the loop and in it. -/
theorem fopened_main (env : Setup) (ts : List Turn) :
    fopened (main host o env ts).trace =
      fopened (openSavefile host o env).events ++ fopened (main host o env ts).capturing := by
  have acquiring : fopened (main host o env ts).acquiring = [] := by
    simp only [main]
    split_ifs <;> first | rfl | exact fopened_acquire env
  have leaving : fopened (main host o env ts).leaving = [] := by
    simp only [main]
    split_ifs
    · rfl
    · exact fopened_fcloseSavefp _
    · simp [errAcquireRx, errAcquireHandle, Event.fopened]
    · exact fopened_errApplyFilters _
    · exact fopened_leaveLoop env _
    · exact fopened_errApplyFilters _
  rw [Run.trace, fopened_append, fopened_append, fopened_append, main_opening, acquiring, leaving,
    List.append_nil, List.append_nil]

theorem isRotated_of_main {env : Setup} {ts : List Turn}
    (opened : path ∈ fopened (main host o env ts).trace) : IsRotated o path := by
  rw [fopened_main] at opened
  rcases List.mem_append.1 opened with first | later
  · exact isRotated_of_openSavefile first
  · simp only [main] at later
    split_ifs at later
    all_goals first | cases later | exact isRotated_of_capture later

/-- **A run opens nothing but numbered files of the name asked for**, if its parts go into
their buffers. -/
theorem main_opens_asked (a : AskedName o.name o.repoDir o.fileFormat) (fits : a.Fits)
    {env : Setup} {ts : List Turn} (opened : path ∈ fopened (main host o env ts).trace) :
    ∃ idx, path = a.path idx := by
  obtain ⟨idx, rfl⟩ := isRotated_of_main opened
  exact ⟨idx, by rw [a.rotatedPath_eq_cutPath, (a.cutPath_eq_path_iff idx).2 fits]⟩

end

/-! ## Poles: an extension of 32 characters -/

namespace Poles

/-- `a.` and 32 times `b`. -/
def longName : CStr := 'a' :: '.' :: List.replicate 32 'b'

def asked : AskedName longName options.repoDir options.fileFormat where
  dir := ['.']
  name := longName
  stem := ['a']
  ext := List.replicate 32 'b'
  located := Or.inr ⟨by decide, rfl, rfl⟩
  named := Or.inl ⟨⟨rfl, by decide⟩, by decide⟩

/-- The last `b` is dropped, and the file opened all the same. -/
theorem extension_cut_short :
    (fopened (rotateFile .little options longName disk State.initial).events =
        [['.', '/', 'a', '1', '.'] ++ List.replicate 31 'b'] ∧
      (rotateFile .little options longName disk State.initial).ok = true) ∧
    ¬ ∀ host o savefile env st (a : AskedName savefile o.repoDir o.fileFormat),
      OpensAsked a (st.fileNo + 1) (rotateFile host o savefile env st) := by
  have opens : fopened (rotateFile .little options longName disk State.initial).events =
      [['.', '/', 'a', '1', '.'] ++ List.replicate 31 'b'] := by
    decide
  refine ⟨⟨opens, by decide⟩, ?_⟩
  intro always
  have exact := (always .little options longName disk State.initial asked).exact _
    (opens ▸ List.mem_singleton_self _)
  exact absurd exact (by decide)

end Poles

end ExanicCapture.Capture
