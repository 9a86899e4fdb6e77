/-
# Capture.ExitPaths -- every exit path undoes what the run did

The device handle, the RX buffer, promiscuous mode and the open files are resources in
the sense of `Theory.Custody`: every event of a run acquires, uses or releases some of
them.  A run is `Undone` when its events go through, nothing acquired twice and nothing
used or released that is not held, and leave the program with what it started with.

Two exit paths break this.  `err_open_next_file` does not switch promiscuous mode off;
and with `-w -` a rotation closes the standard output and then prints on it.
`main_undone_iff` says that these are the only two.
-/
import ExanicCapture.Capture.Trace
import ExanicCapture.Theory.Custody

namespace ExanicCapture.Capture

set_option autoImplicit false

open Theory

/-! ## Resources -/

inductive Resource where
  | handle
  | rx
  | promiscuous
  | stream (fp : Stream)
deriving DecidableEq

/-- What an event does to the resources.  Messages on the standard error output need
none. -/
def Event.effects : Event → List (Effect Resource)
  | .fopen n _ _ => [.acquire (.stream (.file n))]
  | .fclose fp => [.release (.stream fp)]
  | .fwrite fp _ _ => [.use (.stream fp)]
  | .fflush fp => [.use (.stream fp)]
  | .printf _ => [.use (.stream .stdout)]
  | .rotateError _ => []
  | .report _ => []
  | .acquireHandle => [.acquire .handle]
  | .acquireRx => [.use .handle, .acquire .rx]
  | .applyFilters => [.use .handle, .use .rx]
  | .getPromiscuousMode => [.use .handle]
  | .setPromiscuous ok => .use .handle :: if ok then [.acquire .promiscuous] else []
  | .unsetPromiscuous => [.use .handle, .release .promiscuous]
  | .receiveFrame => [.use .rx]
  | .hwTimestamp => [.use .handle]
  | .releaseRx => [.release .rx]
  | .releaseHandle => [.release .handle]

def effects (es : List Event) : List (Effect Resource) := es.flatMap Event.effects

/-- The program starts with the standard output open. -/
def atStart (r : Resource) : Bool := decide (r = .stream .stdout)

/-- It leaves nothing behind but the standard output, and not even that when it is the
save file. -/
def atExit (o : Options) (r : Resource) : Bool :=
  decide (r = .stream .stdout) && decide (o.savefile ≠ some ['-'])

/-- The run undoes what it did. -/
def Undone (host : ByteOrder) (o : Options) (env : Setup) (ts : List Turn) : Prop :=
  Custody.run atStart (effects (main host o env ts).trace) = some (atExit o)

/-- In a run that undoes everything, whatever but the standard output is acquired is
released as often. -/
theorem Undone.released {host : ByteOrder} {o : Options} {env : Setup} {ts : List Turn}
    (undone : Undone host o env ts) {r : Resource} (other : r ≠ .stream .stdout) :
    (effects (main host o env ts).trace).count (.release r) =
      (effects (main host o env ts).trace).count (.acquire r) := by
  have balance := Custody.balance undone r
  simpa [atStart, atExit, other] using balance.symm

/-- And it is held whenever it is used. -/
theorem Undone.held_when_used {host : ByteOrder} {o : Options} {env : Setup} {ts : List Turn}
    (undone : Undone host o env ts) {r : Resource} {before after : List (Effect Resource)}
    (uses : effects (main host o env ts).trace = before ++ .use r :: after) :
    ∃ held, Custody.run atStart before = some held ∧ held r = true := by
  unfold Undone at undone
  rw [uses] at undone
  exact Custody.used_held undone

/-! ## When the rotations are harmless -/

/-- The turns in front of whose frames a rotation is due, as long as each succeeds. -/
def dueTurns (o : Options) (nextRotationTime : Int) : List Turn → List Turn
  | [] => []
  | t :: ts =>
      match t.arrival o with
      | none => dueTurns o nextRotationTime ts
      | some a =>
          if Due o nextRotationTime a.now then t :: dueTurns o (a.now + o.rotateSeconds.toNat) ts
          else dueTurns o nextRotationTime ts

theorem dueTurns_never {o : Options} (never : ¬ 0 < o.rotateSeconds) (nextRotationTime : Int)
    (ts : List Turn) : dueTurns o nextRotationTime ts = [] := by
  induction ts with
  | nil => rfl
  | cons t ts ih =>
      rw [dueTurns]
      split
      · exact ih
      · rw [if_neg (fun due => never due.1)]
        exact ih

/-- These rotations, up to the first that fails, are harmless: none succeeds when the
save file is the standard output, and none fails while promiscuous mode is switched
on. -/
def Harmless (o : Options) (switchedOn : Bool) : Int32 → List Turn → Prop
  | _, [] => True
  | fileNo, t :: ts =>
      if canOpen o o.name (fileNo + 1) t.rotate then
        o.savefile ≠ some ['-'] ∧ Harmless o switchedOn (fileNo + 1) ts
      else switchedOn = false

/-- The save file can be opened. -/
def Opens (o : Options) (env : Setup) : Prop :=
  ∀ name, o.savefile = some name → name ≠ ['-'] → canOpen o name 1 env.rotate = true

/-- The rotations of a run are harmless.  A named file is the first one, and the next
rotation is due after `-G` seconds; on the standard output it is due at once. -/
def HarmlessRotations (o : Options) (env : Setup) (ts : List Turn) : Prop :=
  match o.savefile with
  | none => True
  | some name =>
      if name = ['-'] then Harmless o (setPromisc o env) 0 (dueTurns o 0 ts)
      else Harmless o (setPromisc o env) 1 (dueTurns o (env.now + o.rotateSeconds.toNat) ts)

/-! ## What is held along a run -/

/-- The resources held: the device as far as it is acquired, the save file, and the
standard output unless it is the save file. -/
def held (o : Options) (handle rx switchedOn : Bool) (savefp : Option Stream) : Resource → Bool
  | .handle => handle
  | .rx => rx
  | .promiscuous => switchedOn
  | .stream fp =>
      decide (savefp = some fp) || (decide (fp = .stdout) && decide (o.savefile ≠ some ['-']))

/-- The standard output is the save file only for `-w -`. -/
def Separate (o : Options) (savefp : Option Stream) : Prop :=
  savefp = some .stdout → o.savefile = some ['-']

section

variable {o : Options} {h x p : Bool} {fp : Stream} {savefp : Option Stream}

@[simp] theorem effects_nil : effects [] = [] := rfl

@[simp] theorem effects_cons (e : Event) (es : List Event) :
    effects (e :: es) = e.effects ++ effects es := rfl

@[simp] theorem effects_append (es fs : List Event) :
    effects (es ++ fs) = effects es ++ effects fs :=
  List.flatMap_append

theorem held_atExit : held o false false false none = atExit o := by
  funext r
  cases r <;> simp [held, atExit]

theorem held_fclose (separate : Separate o (some fp)) :
    Function.update (held o h x p (some fp)) (.stream fp) false = held o h x p none := by
  funext r
  by_cases same : r = .stream fp
  · subst same
    rw [Function.update_self]
    by_cases stdout : fp = .stdout
    · simp [held, stdout, separate (stdout ▸ rfl)]
    · simp [held, stdout]
  · rw [Function.update_of_ne same]
    cases r with
    | stream q =>
        have other : fp ≠ q := fun eq => same (eq ▸ rfl)
        simp [held, other]
    | _ => rfl

theorem held_fopen (n : ℕ) :
    Function.update (held o h x p none) (.stream (.file n)) true =
      held o h x p (some (.file n)) := by
  funext r
  by_cases same : r = .stream (.file n)
  · subst same
    simp [held]
  · rw [Function.update_of_ne same]
    cases r with
    | stream q =>
        have other : Stream.file n ≠ q := fun eq => same (eq ▸ rfl)
        simp [held, other]
    | _ => rfl

theorem effects_fwrites (fp : Stream) (writes : Writes) (blocks : List (List UInt8)) :
    ∀ e ∈ effects (fwrites fp writes blocks), e = .use (.stream fp) := by
  induction blocks generalizing writes with
  | nil => simp [fwrites]
  | cons block blocks ih =>
      intro e member
      rw [fwrites, effects_cons] at member
      rcases List.mem_append.1 member with first | others
      · simpa [Event.effects] using first
      · exact ih _ e others

/-- Writing to a file that is held. -/
theorem run_fwrites (mine : held o h x p savefp (.stream fp) = true) (writes : Writes)
    (blocks : List (List UInt8)) (es : List (Effect Resource)) :
    Custody.run (held o h x p savefp) (effects (fwrites fp writes blocks) ++ es) =
      Custody.run (held o h x p savefp) es :=
  Custody.run_uses (fun e member => ⟨_, effects_fwrites fp writes blocks e member, mine⟩) es

/-- Closing the save file. -/
theorem run_fclose (separate : Separate o (some fp)) (es : List (Effect Resource)) :
    Custody.run (held o h x p (some fp)) (.release (.stream fp) :: es) =
      Custody.run (held o h x p none) es := by
  rw [Custody.run_release (by simp [held]), held_fclose separate]

/-- Opening the next one. -/
theorem run_fopen (n : ℕ) (es : List (Effect Resource)) :
    Custody.run (held o h x p none) (.acquire (.stream (.file n)) :: es) =
      Custody.run (held o h x p (some (.file n))) es := by
  rw [Custody.run_acquire (by simp [held]), held_fopen]

theorem run_receiving (es : List (Effect Resource)) :
    Custody.run (held o true true p savefp) (effects (receiving o) ++ es) =
      Custody.run (held o true true p savefp) es := by
  refine Custody.run_uses (fun e member => ?_) es
  unfold receiving at member
  split at member
  · simp only [effects_cons, effects_nil, Event.effects, List.append_nil, List.mem_append,
      List.mem_singleton] at member
    rcases member with rfl | rfl
    · exact ⟨_, rfl, rfl⟩
    · exact ⟨_, rfl, rfl⟩
  · simp only [effects_cons, effects_nil, Event.effects, List.append_nil,
      List.mem_singleton] at member
    exact ⟨_, member, rfl⟩

theorem run_recording (host : ByteOrder) (t : Turn) (a : Arrival) (es : List (Effect Resource)) :
    Custody.run (held o h x p (some fp)) (effects (recording host o fp t a) ++ es) =
      Custody.run (held o h x p (some fp)) es := by
  have mine : held o h x p (some fp) (.stream fp) = true := by simp [held]
  rw [recording, effects_append, List.append_assoc, run_fwrites mine]
  split
  · exact Custody.run_use mine
  · rfl

end

/-! ## The ways out -/

section

variable {o : Options} {h x p : Bool} {st : State}

theorem run_fcloseSavefp (separate : Separate o st.savefp) :
    Custody.run (held o h x p st.savefp) (effects (fcloseSavefp st)) =
      some (held o h x p none) := by
  cases saving : st.savefp with
  | none => simp [fcloseSavefp, saving, Custody.run]
  | some fp =>
      rw [saving] at separate
      simp only [fcloseSavefp, saving]
      exact run_fclose separate []

@[simp] theorem held_update_handle (savefp : Option Stream) (b : Bool) :
    Function.update (held o h x p savefp) .handle b = held o b x p savefp := by
  funext r
  cases r <;> simp [held, Function.update]

@[simp] theorem held_update_rx (savefp : Option Stream) (b : Bool) :
    Function.update (held o h x p savefp) .rx b = held o h b p savefp := by
  funext r
  cases r <;> simp [held, Function.update]

@[simp] theorem held_update_promiscuous (savefp : Option Stream) (b : Bool) :
    Function.update (held o h x p savefp) .promiscuous b = held o h x b savefp := by
  funext r
  cases r <;> simp [held, Function.update]

theorem run_releaseHandle (es : List (Effect Resource)) (savefp : Option Stream) :
    Custody.run (held o true x p savefp) (.release .handle :: es) =
      Custody.run (held o false x p savefp) es := by
  rw [Custody.run_release rfl, held_update_handle]

theorem run_releaseRx (es : List (Effect Resource)) (savefp : Option Stream) :
    Custody.run (held o h true p savefp) (.release .rx :: es) =
      Custody.run (held o h false p savefp) es := by
  rw [Custody.run_release rfl, held_update_rx]

theorem run_unsetPromiscuous (es : List (Effect Resource)) (savefp : Option Stream) :
    Custody.run (held o true x true savefp) (.use .handle :: .release .promiscuous :: es) =
      Custody.run (held o true x false savefp) es := by
  rw [Custody.run_use rfl, Custody.run_release rfl, held_update_promiscuous]

/-- `err_apply_filters` releases everything but promiscuous mode. -/
theorem run_errApplyFilters (separate : Separate o st.savefp) :
    Custody.run (held o true true p st.savefp) (effects (errApplyFilters st)) =
      some (held o false false p none) := by
  show Custody.run _ (.release .rx :: .release .handle :: effects (fcloseSavefp st)) = _
  rw [run_releaseRx, run_releaseHandle, run_fcloseSavefp separate]

/-- The way out after the loop releases everything. -/
theorem run_leaveLoop (env : Setup) (separate : Separate o st.savefp) :
    Custody.run (held o true true (setPromisc o env) st.savefp) (effects (leaveLoop o env st)) =
      some (atExit o) := by
  have rest : Custody.run (held o true true false st.savefp)
      (.release .rx :: .release .handle :: effects (fcloseSavefp st)) = some (atExit o) := by
    rw [run_releaseRx, run_releaseHandle, run_fcloseSavefp separate, held_atExit]
  cases switched : setPromisc o env with
  | false =>
      rw [leaveLoop, switched]
      exact rest
  | true =>
      rw [leaveLoop, switched]
      exact (run_unsetPromiscuous _ _).trans rest

/-- Promiscuous mode left on is not what the program started with. -/
theorem held_promiscuous : held o false false p none = atExit o ↔ p = false := by
  constructor
  · intro same
    exact congrFun same .promiscuous
  · rintro rfl
    exact held_atExit

theorem run_acquireHandle (es : List (Effect Resource)) (savefp : Option Stream) :
    Custody.run (held o false x p savefp) (.acquire .handle :: es) =
      Custody.run (held o true x p savefp) es := by
  rw [Custody.run_acquire rfl, held_update_handle]

theorem run_acquireRx (es : List (Effect Resource)) (savefp : Option Stream) :
    Custody.run (held o true false p savefp) (.use .handle :: .acquire .rx :: es) =
      Custody.run (held o true true p savefp) es := by
  rw [Custody.run_use rfl, Custody.run_acquire rfl, held_update_rx]

theorem run_setPromiscuous (es : List (Effect Resource)) (savefp : Option Stream) :
    Custody.run (held o true x false savefp) (.use .handle :: .acquire .promiscuous :: es) =
      Custody.run (held o true x true savefp) es := by
  rw [Custody.run_use rfl, Custody.run_acquire rfl, held_update_promiscuous]

/-- The device is acquired. -/
theorem run_acquire (env : Setup) (es : List (Effect Resource)) (savefp : Option Stream) :
    Custody.run (held o false false false savefp) (effects (acquire o env) ++ es) =
      Custody.run (held o true true (setPromisc o env) savefp) es := by
  have device (fs : List (Effect Resource)) :
      Custody.run (held o false false false savefp)
          (effects [.acquireHandle, .acquireRx] ++ fs) =
        Custody.run (held o true true false savefp) fs :=
    (run_acquireHandle _ _).trans (run_acquireRx _ _)
  have filters (fs : List (Effect Resource)) :
      Custody.run (held o true true false savefp)
          (effects (if o.filter then [.applyFilters] else []) ++ fs) =
        Custody.run (held o true true false savefp) fs := by
    split
    · exact (Custody.run_use rfl).trans (Custody.run_use rfl)
    · rfl
  have asks (fs : List (Effect Resource)) :
      Custody.run (held o true true false savefp)
          (effects (if o.promisc then [.getPromiscuousMode] else []) ++ fs) =
        Custody.run (held o true true false savefp) fs := by
    split
    · exact Custody.run_use rfl
    · rfl
  have switches :
      Custody.run (held o true true false savefp)
          (effects (if o.promisc && !env.getPromiscuousMode then
            [.setPromiscuous env.setPromiscuousMode] else []) ++ es) =
        Custody.run (held o true true (setPromisc o env) savefp) es := by
    cases wanted : o.promisc && !env.getPromiscuousMode with
    | false =>
        rw [setPromisc, wanted]
        rfl
    | true =>
        rw [setPromisc, wanted]
        cases switched : env.setPromiscuousMode with
        | false => exact Custody.run_use rfl
        | true => exact run_setPromiscuous es savefp
  rw [acquire, effects_append, effects_append, effects_append]
  simp only [List.append_assoc]
  rw [device, filters, asks, switches]

end

/-! ## The loop -/

section

variable (host : ByteOrder) {o : Options} {env : Setup}

/-- The loop and the way out behind it. -/
def fromLoop (host : ByteOrder) (o : Options) (env : Setup) (st : State) (ts : List Turn) :
    List Event :=
  let loop := capture host o st ts
  loop.events ++ if loop.ok then leaveLoop o env loop.state else errApplyFilters loop.state

theorem fromLoop_goesOn {st : State} {t : Turn} {ts : List Turn}
    (goes : (turn host o t st).ok = true) :
    fromLoop host o env st (t :: ts) =
      (turn host o t st).events ++ fromLoop host o env (turn host o t st).state ts := by
  simp only [fromLoop, capture_goesOn host goes, List.append_assoc]

theorem fromLoop_stops {st : State} {t : Turn} {ts : List Turn}
    (stops : (turn host o t st).ok = false) :
    fromLoop host o env st (t :: ts) =
      (turn host o t st).events ++ errApplyFilters (turn host o t st).state := by
  simp [fromLoop, capture_stops host stops, stops]

/-- Without a save file every event of the loop uses the device or the standard output,
and the loop does not stop. -/
theorem fromLoop_dumps {st : State} {ts : List Turn} (dumping : st.savefp = none)
    (unnamed : o.savefile = none) :
    Custody.run (held o true true (setPromisc o env) none)
      (effects (fromLoop host o env st ts)) = some (atExit o) := by
  induction ts generalizing st with
  | nil =>
      have separate : Separate o st.savefp := by
        rw [dumping]
        intro stdout
        cases stdout
      have leaves := run_leaveLoop env separate
      rw [dumping] at leaves
      exact leaves
  | cons t ts ih =>
      obtain ⟨goes, still, which⟩ := turn_dumps host (o := o) (t := t) dumping
      have mine : held o true true (setPromisc o env) none (.stream .stdout) = true := by
        simp [held, unnamed]
      have uses : ∀ e ∈ effects (turn host o t st).events,
          ∃ r, e = .use r ∧ held o true true (setPromisc o env) none r = true := by
        intro e member
        obtain ⟨event, among, effect⟩ := List.mem_flatMap.1 member
        have which := which event among
        cases event with
        | receiveFrame => exact ⟨_, List.mem_singleton.1 effect, rfl⟩
        | hwTimestamp => exact ⟨_, List.mem_singleton.1 effect, rfl⟩
        | printf what => exact ⟨_, List.mem_singleton.1 effect, mine⟩
        | _ => simp at which
      rw [fromLoop_goesOn host goes, effects_append, Custody.run_uses uses]
      exact ih still

/-- A rotation that succeeds: the message behind it needs the standard output, which is
gone if it was the save file. -/
theorem run_rotation {p : Bool} {fp : Stream} (separate : Separate o (some fp))
    (counters : Counters) (n : ℕ) (idx : Int32) (path : CStr) (writes : Writes)
    (blocks : List (List UInt8)) (es : List (Effect Resource)) :
    Custody.run (held o true true p (some fp))
        (effects ([.report counters, .fclose fp, .fopen n idx path] ++
          fwrites (.file n) writes blocks ++ [.printf (.capturing path)]) ++ es) =
      if o.savefile = some ['-'] then none
      else Custody.run (held o true true p (some (.file n))) es := by
  have mine : held o true true p (some (.file n)) (.stream (.file n)) = true := by simp [held]
  rw [effects_append, effects_append, List.append_assoc, List.append_assoc]
  refine (run_fclose separate _).trans ((run_fopen n _).trans ?_)
  refine (run_fwrites mine writes blocks _).trans ?_
  split
  · rename_i stdout
    exact Custody.run_use_free (by simp [held, stdout])
  · rename_i named
    exact Custody.run_use (by simp [held, named])

/-- A rotation that fails closes the save file and leaves through `err_open_next_file`. -/
theorem run_failedRotation {p : Bool} {fp : Stream} {st : State} (mine : Separate o (some fp))
    (counters : Counters) (error : RotateError) (closed : st.savefp = none) :
    Custody.run (held o true true p (some fp))
        (effects ([.report counters, .fclose fp, .rotateError error] ++ errApplyFilters st)) =
      some (held o false false p none) := by
  have separate : Separate o st.savefp := by
    intro stdout
    rw [closed] at stdout
    cases stdout
  have leaves := run_errApplyFilters (p := p) separate
  rw [closed] at leaves
  exact (run_fclose mine _).trans leaves

/-- The loop with a save file undoes everything exactly when its rotations are
harmless. -/
theorem fromLoop_undone_iff {st : State} {ts : List Turn} {fp : Stream}
    (saving : st.savefp = some fp) (separate : Separate o (some fp)) :
    Custody.run (held o true true (setPromisc o env) (some fp))
        (effects (fromLoop host o env st ts)) = some (atExit o) ↔
      Harmless o (setPromisc o env) st.fileNo (dueTurns o st.nextRotationTime ts) := by
  induction ts generalizing st fp with
  | nil =>
      rw [← saving] at separate ⊢
      exact iff_of_true (run_leaveLoop env separate) trivial
  | cons t ts ih =>
      cases arrives : t.arrival o with
      | none =>
          obtain ⟨counters, does⟩ := turn_quiet host saving arrives
          have goes : (turn host o t st).ok = true := by rw [does]
          rw [fromLoop_goesOn host goes, does, effects_append]
          simp only [dueTurns, arrives]
          rw [← @ih { st with counters } fp saving separate]
          exact iff_of_eq (congrArg (· = _) (Custody.run_use rfl))
      | some a =>
          by_cases due : Due o st.nextRotationTime a.now
          · simp only [dueTurns, arrives, due, if_true, Harmless]
            cases can : canOpen o o.name (st.fileNo + 1) t.rotate with
            | false =>
                -- `err_open_next_file`: promiscuous mode stays as it is
                obtain ⟨error, does⟩ := turn_stops host saving arrives due can
                have stops : (turn host o t st).ok = false := by rw [does]
                rw [fromLoop_stops host stops, does, List.append_assoc, effects_append,
                  run_receiving, run_failedRotation separate _ _ rfl, Option.some_inj]
                simpa using held_promiscuous
            | true =>
                obtain ⟨fileSize, counters, does⟩ := turn_rotates host saving arrives due can
                have goes : (turn host o t st).ok = true := by rw [does]
                rw [fromLoop_goesOn host goes, does, effects_append, effects_append,
                  List.append_assoc, List.append_assoc (receiving o), List.append_assoc (receiving o),
                  effects_append, List.append_assoc, run_receiving, run_rotation separate]
                by_cases stdout : o.savefile = some ['-']
                · simp [stdout]
                · rw [if_neg stdout, run_recording]
                  simp only [stdout, if_true, ne_eq, not_false_iff, true_and]
                  refine ih rfl ?_
                  intro same
                  cases same
          · obtain ⟨fileSize, counters, does⟩ := turn_saves host saving arrives due
            have goes : (turn host o t st).ok = true := by rw [does]
            rw [fromLoop_goesOn host goes, does, effects_append, effects_append,
              List.append_assoc, run_receiving, run_recording]
            simp only [dueTurns, arrives, due, if_false]
            exact @ih { st with fileSize, counters } fp saving separate

end

/-! ## The whole run -/

section

variable (host : ByteOrder) {o : Options} {env : Setup} (ts : List Turn)

/-- A save file that cannot be opened: the run has nothing to undo. -/
theorem undone_of_not_opens (refused : ¬ Opens o env) : Undone host o env ts := by
  obtain ⟨name, named, notStdout, cannot⟩ :
      ∃ name, o.savefile = some name ∧ name ≠ ['-'] ∧ canOpen o name 1 env.rotate = false := by
    simpa [Opens] using refused
  obtain ⟨error, events, failed⟩ := openSavefile_refused host named notStdout cannot
  have stdout : o.savefile ≠ some ['-'] := by simpa [named] using notStdout
  have same : atStart = atExit o := by
    funext r
    simp [atStart, atExit, stdout]
  simp only [Undone, main, failed, if_true, Run.trace, events]
  exact congrArg some same

/-- Behind the opening of the save file the program holds it, and nothing of the
device. -/
theorem openSavefile_held (opens : Opens o env) (es : List (Effect Resource)) :
    Custody.run atStart (effects (openSavefile host o env).events ++ es) =
      Custody.run (held o false false false (openSavefile host o env).state.savefp) es := by
  have start (notStdout : o.savefile ≠ some ['-']) : atStart = held o false false false none := by
    funext r
    cases r <;> simp [atStart, held, notStdout]
  cases saving : o.savefile with
  | none =>
      rw [start (by simp [saving])]
      simp only [openSavefile, saving]
      rfl
  | some name =>
      by_cases stdout : name = ['-']
      · have same : atStart = held o false false false (some .stdout) := by
          funext r
          cases r <;> simp [atStart, held, saving, stdout, eq_comm]
        rw [same]
        simp only [openSavefile, saving, stdout, if_true]
        rfl
      · have notStdout : o.savefile ≠ some ['-'] := by simpa [saving] using stdout
        have mine : held o false false false (some (.file 0)) (.stream (.file 0)) = true := by
          simp [held]
        rw [start notStdout, openSavefile_named host saving stdout (opens name saving stdout)]
        rw [effects_append, List.append_assoc]
        refine (run_fopen 0 _).trans ((run_fwrites mine _ _ _).trans ?_)
        exact Custody.run_use (by simp [held, notStdout])

theorem openSavefile_separate (opens : Opens o env) :
    (openSavefile host o env).ok = true ∧
      Separate o (openSavefile host o env).state.savefp := by
  cases saving : o.savefile with
  | none =>
      simp only [openSavefile, saving, true_and]
      intro stdout
      cases stdout
  | some name =>
      by_cases stdout : name = ['-']
      · simp only [openSavefile, saving, stdout, if_true, true_and]
        intro _
        exact by rw [saving, stdout]
      · rw [openSavefile_named host saving stdout (opens name saving stdout)]
        refine ⟨rfl, ?_⟩
        intro same
        cases same

/-- A device that cannot be acquired: the labels behind the loop release what was
acquired before. -/
theorem undone_of_not_acquires (opens : Opens o env) (refused : ¬ env.Acquires o) :
    Undone host o env ts := by
  obtain ⟨goes, separate⟩ := openSavefile_separate host opens
  have closing := run_fcloseSavefp (h := false) (x := false) (p := false) separate
  rw [held_atExit] at closing
  unfold Undone
  cases handle : env.acquireHandle with
  | false =>
      have trace : (main host o env ts).trace = (openSavefile host o env).events ++
          errAcquireHandle (openSavefile host o env).state := by
        simp [main, goes, handle, Run.trace]
      rw [trace, effects_append, openSavefile_held host opens]
      exact closing
  | true =>
      cases rx : env.acquireRx with
      | false =>
          have trace : (main host o env ts).trace = (openSavefile host o env).events ++
              (.acquireHandle :: errAcquireRx (openSavefile host o env).state) := by
            simp [main, goes, handle, rx, Run.trace]
          rw [trace, effects_append, openSavefile_held host opens]
          exact (run_acquireHandle _ _).trans ((run_releaseHandle _ _).trans closing)
      | true =>
          have filters : (o.filter && !env.applyFilters) = true := by
            by_contra accepted
            refine refused ⟨handle, rx, ?_⟩
            intro filter
            simpa [filter] using accepted
          have trace : (main host o env ts).trace = (openSavefile host o env).events ++
              (.acquireHandle :: .acquireRx :: .applyFilters ::
                errApplyFilters (openSavefile host o env).state) := by
            simp [main, goes, handle, rx, filters, Run.trace]
          rw [trace, effects_append, openSavefile_held host opens]
          refine (run_acquireHandle _ _).trans ((run_acquireRx _ _).trans ?_)
          refine (Custody.run_use rfl).trans ((Custody.run_use rfl).trans ?_)
          exact (run_errApplyFilters separate).trans (congrArg some held_atExit)

/-- **A run undoes what it did exactly when its rotations are harmless.**  Exits before
the loop always do. -/
theorem main_undone_iff :
    Undone host o env ts ↔
      (Opens o env → env.Acquires o → HarmlessRotations o env ts) := by
  by_cases opens : Opens o env
  · by_cases acquires : env.Acquires o
    · obtain ⟨goes, separate⟩ := openSavefile_separate host opens
      have trace : (main host o env ts).trace =
          (openSavefile host o env).events ++ (acquire o env ++
            fromLoop host o env (openSavefile host o env).state ts) := by
        rw [main_captures host ts goes acquires]
        simp [Run.trace, fromLoop]
      unfold Undone
      rw [trace, effects_append, openSavefile_held host opens, effects_append, run_acquire]
      simp only [opens, acquires, true_imp_iff]
      cases saving : o.savefile with
      | none =>
          simp only [HarmlessRotations, saving, openSavefile, iff_true]
          exact fromLoop_dumps host rfl saving
      | some name =>
          by_cases stdout : name = ['-']
          · simp only [HarmlessRotations, openSavefile, saving, stdout, if_true]
            exact fromLoop_undone_iff host rfl fun _ => by rw [saving, stdout]
          · rw [openSavefile_named host saving stdout (opens name saving stdout)]
            simp only [HarmlessRotations, saving, stdout, if_false]
            have same : dueTurns o (if 0 < o.rotateSeconds then
                env.now + o.rotateSeconds.toNat else 0) ts =
                dueTurns o (env.now + o.rotateSeconds.toNat) ts := by
              by_cases rotates : 0 < o.rotateSeconds
              · rw [if_pos rotates]
              · rw [dueTurns_never rotates, dueTurns_never rotates]
            rw [← same]
            refine fromLoop_undone_iff host rfl ?_
            intro closed
            cases closed
    · exact iff_of_true (undone_of_not_acquires host ts opens acquires)
        fun _ acquired => absurd acquired acquires
  · exact iff_of_true (undone_of_not_opens host ts opens) fun opened => absurd opened opens

end

/-! ## Poles: a rotation that fails -/

namespace Poles

/-- The file for the second frame cannot be created. -/
def fullDisk : RotateEnv := { disk with fopen := false }

/-- Ten seconds after the save file was opened. -/
def lateFrame : Turn := { frame 10 with rotate := fullDisk }

end Poles

/-- The rotation fails, and the program leaves the interface in promiscuous mode. -/
theorem promiscuous_left_on :
    ¬ ∀ (host : ByteOrder) (o : Options) (env : Setup) (ts : List Turn),
      Undone host o env ts := by
  intro undone
  have run := undone .little Poles.options Poles.setup [Poles.frame 0, Poles.lateFrame]
  have left := congrArg (Option.map (· .promiscuous)) run
  exact absurd left (by decide)

end ExanicCapture.Capture
