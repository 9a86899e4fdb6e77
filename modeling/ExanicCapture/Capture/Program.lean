/-
# Capture.Program -- `main`, from the save file to the exit

The program after argument parsing, as a function of its options and of what its
environment answers: the file system (`RotateEnv`), the device (`Setup`), and in every
turn of the capture loop the receiver, the clocks and the writes (`Turn`).  What it
does is the list of its calls (`Event`), in order.

`main` leaves the loop after the given turns, when a signal has cleared `run`, or
earlier, when a rotation fails.  `Run` keeps the parts of the program apart: opening
the save file, acquiring the device, the loop, and the way out.
-/
import ExanicCapture.Capture.Path
import ExanicCapture.Rx.Chunk
import ExanicCapture.Save.Erf
import ExanicCapture.Save.Pcap

namespace ExanicCapture.Capture

set_option autoImplicit false

open Theory Save Rx

/-! ## Options, events and state -/

/-- The variables of `main` that are fixed by the arguments. -/
structure Options where
  savefile : Option CStr
  fileFormat : FileFormat
  nsecPcap : Bool
  snaplen : Int32
  rotateSeconds : UInt32
  repoDir : Option CStr
  promisc : Bool
  hwTstamp : Bool
  portNumber : Int32
  filter : Bool

/-- An open `FILE`: the standard output, or the one made by the `n`-th `fopen`. -/
inductive Stream where
  | stdout
  | file (n : ℕ)
deriving DecidableEq

/-- Why `rotate_file` returned -1. -/
inductive RotateError where
  | directory (path : CStr)
  | nameTooLong
  | fopen (path : CStr)
deriving DecidableEq

/-- `rx_success`, `rx_aborted` and so on. -/
structure Counters where
  success : UInt64
  aborted : UInt64
  corrupt : UInt64
  hwovfl : UInt64
  swovfl : UInt64
  other : UInt64
deriving DecidableEq

/-- What the program prints on the standard output. -/
inductive Print where
  | capturing (path : CStr)
  | time (tsps : ExanicTimespecps)
  | received (rxSize : Int) (status : ℕ)
  | hexdump (length : Int)
  | lost (status : ℕ)
deriving DecidableEq

/-- The calls the program makes.  `fwrite` carries the block it is given and the
part of it that is stored. -/
inductive Event where
  | fopen (n : ℕ) (index : Int32) (path : CStr)
  | fclose (fp : Stream)
  | fwrite (fp : Stream) (asked stored : List UInt8)
  | fflush (fp : Stream)
  | printf (what : Print)
  | rotateError (error : RotateError)
  | report (counters : Counters)
  | acquireHandle
  | acquireRx
  | applyFilters
  | getPromiscuousMode
  | setPromiscuous (ok : Bool)
  | unsetPromiscuous
  | receiveFrame
  | hwTimestamp
  | releaseRx
  | releaseHandle
deriving DecidableEq

/-- The variables of `main` that change, and how many files it has opened. -/
structure State where
  savefp : Option Stream
  fileNo : Int32
  fileSize : UInt64
  nextRotationTime : Int
  counters : Counters
  opened : ℕ

def State.initial : State where
  savefp := none
  fileNo := 0
  fileSize := 0
  nextRotationTime := 0
  counters := ⟨0, 0, 0, 0, 0, 0⟩
  opened := 0

/-! ## What the environment answers -/

/-- How much each of a few `fwrite` calls stores: all of its block, or at most so
many bytes. -/
abbrev Writes := ℕ → Option ℕ

def stored (limit : Option ℕ) (block : List UInt8) : List UInt8 :=
  match limit with
  | none => block
  | some n => block.take n

/-- `fwrite` of several blocks in a row. -/
def fwrites (fp : Stream) (writes : Writes) : List (List UInt8) → List Event
  | [] => []
  | block :: blocks =>
      .fwrite fp block (stored (writes 0) block) :: fwrites fp (fun i => writes (i + 1)) blocks

/-- The file system during one `rotate_file`: the answer of `stat` (whether the path
is a directory), of `mkdir` (counting `EEXIST` as success) and of `fopen`. -/
structure RotateEnv where
  stat : Option Bool
  mkdir : Bool
  fopen : Bool
  writes : Writes

/-- The answers before the loop.  `now` is the clock after the save file was
opened. -/
structure Setup where
  rotate : RotateEnv
  now : Int
  acquireHandle : Bool
  acquireRx : Bool
  applyFilters : Bool
  getPromiscuousMode : Bool
  setPromiscuousMode : Bool

/-- One turn of the loop: what the receiver returned, the system clock and the
hardware clock, `time(NULL)`, and the file system. -/
structure Turn where
  rxSize : Int
  status : ℕ
  rxBuf : ℕ → UInt8
  tvSec : Int
  tvNsec : Int
  hwTsps : ExanicTimespecps
  now : Int
  rotate : RotateEnv
  writes : Writes
  rxSize_le : rxSize ≤ rxBufSize

/-- The events of a part of the program, the state behind it, and whether the
program goes on. -/
structure Outcome where
  events : List Event
  state : State
  ok : Bool

/-! ## `rotate_file` -/

/-- `ensure_dir`: whether it returns 0. -/
def ensureDir (path : CStr) (env : RotateEnv) : Bool :=
  if path = [] then true
  else
    match env.stat with
    | some isDir => isDir
    | none => env.mkdir

/-- `sizeof(file_name_buf)`. -/
def fileNameBufSize : ℕ := 4096

section

variable (host : ByteOrder) (o : Options)

/-- What `rotate_file` writes into a new file. -/
def fileHeader : Written :=
  match o.fileFormat with
  | .pcap => writePcapHeader host o.nsecPcap o.snaplen
  | .erf => { blocks := [], returned := 0 }

def fcloseSavefp (st : State) : List Event :=
  match st.savefp with
  | some fp => [.fclose fp]
  | none => []

/-- `rotate_file`. -/
def rotateFile (savefile : CStr) (env : RotateEnv) (st : State) : Outcome :=
  let closing := fcloseSavefp st
  let idx := st.fileNo + 1
  let st := { st with savefp := none, fileNo := idx }
  let dir := outDir savefile o.repoDir
  let path := rotatedPath savefile o.repoDir o.fileFormat idx
  if ensureDir dir env = false then
    { events := closing ++ [.rotateError (.directory dir)], state := st, ok := false }
  else if path.length ≥ fileNameBufSize then
    { events := closing ++ [.rotateError .nameTooLong], state := st, ok := false }
  else if env.fopen = false then
    { events := closing ++ [.rotateError (.fopen path)], state := st, ok := false }
  else
    let fp := Stream.file st.opened
    let header := fileHeader host o
    { events :=
        closing ++ .fopen st.opened idx path :: fwrites fp env.writes header.blocks ++
          [.printf (.capturing path)]
      state :=
        { st with
          savefp := some fp, opened := st.opened + 1, fileSize := .ofNat header.returned }
      ok := true }

/-! ## The capture loop -/

/-- The record of one frame, in the chosen format. -/
def writePacket (data : ℕ → UInt8) (len : Int) (tsps : ExanicTimespecps) : Written :=
  match o.fileFormat with
  | .pcap => writePcapPacket host data len tsps o.nsecPcap o.snaplen
  | .erf => writeErfPacket host data len tsps o.portNumber o.snaplen

/-- The time a turn gives its frame. -/
def Turn.tsps (t : Turn) : ExanicTimespecps :=
  if t.rxSize > 0 ∧ o.hwTstamp then t.hwTsps
  else { tvSec := t.tvSec, tvPsec := t.tvNsec * 1000 }

/-- "Update counters". -/
def Counters.update (c : Counters) (status : ℕ) : Counters :=
  if status = exanicRxFrameOk then { c with success := c.success + 1 }
  else if status = exanicRxFrameCorrupt then { c with corrupt := c.corrupt + 1 }
  else if status = exanicRxFrameAborted then { c with aborted := c.aborted + 1 }
  else if status = exanicRxFrameHwovfl then { c with hwovfl := c.hwovfl + 1 }
  else if status = exanicRxFrameSwovfl then { c with swovfl := c.swovfl + 1 }
  else { c with other := c.other + 1 }

/-- "Dump to stdout". -/
def dump (t : Turn) : List Event :=
  .printf (.time (t.tsps o)) ::
    if t.rxSize > 0 then
      [.printf (.received t.rxSize t.status),
        .printf (.hexdump (if t.rxSize > o.snaplen.toInt then o.snaplen.toInt else t.rxSize))]
    else [.printf (.lost t.status)]

/-- `flush`: set when the save file is the standard output. -/
def Options.flush : Bool := o.savefile = some ['-']

/-- The save file argument, where there is one. -/
def Options.name : CStr := o.savefile.getD []

/-- The rotation in front of a frame. -/
def rotateIfDue (t : Turn) (st : State) : Outcome :=
  if 0 < o.rotateSeconds ∧ st.nextRotationTime ≤ t.now then
    let rotated := rotateFile host o o.name t.rotate st
    { rotated with
      events := .report st.counters :: rotated.events
      state :=
        if rotated.ok then
          { rotated.state with nextRotationTime := t.now + o.rotateSeconds.toNat }
        else rotated.state }
  else { events := [], state := st, ok := true }

/-- The record of a frame, written to the save file. -/
def saveFrame (t : Turn) (fp : Stream) (st : State) : Outcome :=
  let record := writePacket host o t.rxBuf t.rxSize (t.tsps o)
  { events := fwrites fp t.writes record.blocks ++ if o.flush then [.fflush fp] else []
    state := { st with fileSize := st.fileSize + .ofNat record.returned }
    ok := true }

/-- "Log to pcap file". -/
def logFrame (t : Turn) (st : State) : Outcome :=
  let rotated := rotateIfDue host o t st
  match rotated.ok, rotated.state.savefp with
  | true, some fp =>
      let saved := saveFrame host o t fp rotated.state
      { saved with events := rotated.events ++ saved.events }
  | _, _ => rotated

/-- One turn of the loop. -/
def turn (t : Turn) (st : State) : Outcome :=
  if t.rxSize < 0 ∧ t.status = exanicRxFrameOk then
    { events := [.receiveFrame], state := st, ok := true }
  else
    let clock := if t.rxSize > 0 ∧ o.hwTstamp then [Event.hwTimestamp] else []
    let handled :=
      if st.savefp = none then { events := dump o t, state := st, ok := true }
      else if t.rxSize > 0 then logFrame host o t st
      else { events := [], state := st, ok := true }
    { events := .receiveFrame :: clock ++ handled.events
      state :=
        if handled.ok then
          { handled.state with counters := handled.state.counters.update t.status }
        else handled.state
      ok := handled.ok }

/-- The loop, until `run` is cleared or a rotation fails. -/
def capture (st : State) : List Turn → Outcome
  | [] => { events := [], state := st, ok := true }
  | t :: ts =>
      let one := turn host o t st
      if one.ok then
        let others := capture one.state ts
        { others with events := one.events ++ others.events }
      else one

/-! ## `main` -/

/-- What a run did, and its exit status. -/
structure Run where
  opening : List Event
  acquiring : List Event
  capturing : List Event
  leaving : List Event
  exit : ℕ

def Run.trace (r : Run) : List Event :=
  r.opening ++ r.acquiring ++ r.capturing ++ r.leaving

/-- "if (savefile != NULL)". -/
def openSavefile (env : Setup) : Outcome :=
  match o.savefile with
  | none => { events := [], state := .initial, ok := true }
  | some name =>
      if name = ['-'] then
        { events := [], state := { State.initial with savefp := some .stdout }, ok := true }
      else
        let rotated := rotateFile host o name env.rotate .initial
        { rotated with
          state :=
            if rotated.ok ∧ 0 < o.rotateSeconds then
              { rotated.state with nextRotationTime := env.now + o.rotateSeconds.toNat }
            else rotated.state }

/-- `set_promisc`, after the attempt to switch promiscuous mode on. -/
def setPromisc (env : Setup) : Bool :=
  o.promisc && !env.getPromiscuousMode && env.setPromiscuousMode

/-- The device is acquired, the filters are applied, and promiscuous mode is switched
on if it was off. -/
def acquire (env : Setup) : List Event :=
  [.acquireHandle, .acquireRx] ++
    (if o.filter then [.applyFilters] else []) ++
    (if o.promisc then [.getPromiscuousMode] else []) ++
    (if o.promisc && !env.getPromiscuousMode then [.setPromiscuous env.setPromiscuousMode]
      else [])

/-! ### The labels behind the loop, each running into the next -/

def errAcquireHandle (st : State) : List Event := fcloseSavefp st

def errAcquireRx (st : State) : List Event := .releaseHandle :: errAcquireHandle st

/-- `err_open_next_file` and `err_apply_filters`. -/
def errApplyFilters (st : State) : List Event := .releaseRx :: errAcquireRx st

/-- The way out after the loop. -/
def leaveLoop (env : Setup) (st : State) : List Event :=
  (if setPromisc o env then [.unsetPromiscuous] else []) ++
    [.report st.counters, .releaseRx, .releaseHandle] ++ fcloseSavefp st

/-- `main`, after argument parsing. -/
def main (env : Setup) (ts : List Turn) : Run :=
  let file := openSavefile host o env
  if file.ok = false then
    { opening := file.events, acquiring := [], capturing := [], leaving := [], exit := 1 }
  else if env.acquireHandle = false then
    { opening := file.events, acquiring := [], capturing := []
      leaving := errAcquireHandle file.state, exit := 1 }
  else if env.acquireRx = false then
    { opening := file.events, acquiring := [.acquireHandle], capturing := []
      leaving := errAcquireRx file.state, exit := 1 }
  else if o.filter && !env.applyFilters then
    { opening := file.events
      acquiring := [.acquireHandle, .acquireRx, .applyFilters], capturing := []
      leaving := errApplyFilters file.state, exit := 1 }
  else
    let loop := capture host o file.state ts
    if loop.ok then
      { opening := file.events, acquiring := acquire o env, capturing := loop.events
        leaving := leaveLoop o env loop.state, exit := 0 }
    else
      { opening := file.events, acquiring := acquire o env, capturing := loop.events
        leaving := errApplyFilters loop.state, exit := 1 }

end

/-! ## Poles: one-byte frames on a working device -/

namespace Poles

def options : Options where
  savefile := some ['a']
  fileFormat := .erf
  nsecPcap := false
  snaplen := 4
  rotateSeconds := 10
  repoDir := none
  promisc := true
  hwTstamp := false
  portNumber := 0
  filter := false

def disk : RotateEnv where
  stat := some true
  mkdir := true
  fopen := true
  writes _ := none

def setup : Setup where
  rotate := disk
  now := 0
  acquireHandle := true
  acquireRx := true
  applyFilters := true
  getPromiscuousMode := false
  setPromiscuousMode := true

def frame (now : Int) : Turn where
  rxSize := 1
  status := 0
  rxBuf _ := 7
  tvSec := now
  tvNsec := 0
  hwTsps := ⟨0, 0⟩
  now
  rotate := disk
  writes _ := none
  rxSize_le := by decide

end Poles

end ExanicCapture.Capture
