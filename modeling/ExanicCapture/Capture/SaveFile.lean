/-
# Capture.SaveFile -- what a whole save file holds

A save file in either format: the header `rotate_file` writes (none for ERF) and one
record per frame.  `readFile` reads it back; what it accepts has the length of its
header and records (`readFile_length`).
-/
import ExanicCapture.Capture.Program

namespace ExanicCapture.Capture

set_option autoImplicit false

open Theory Save

inductive SavedRecord where
  | pcap (r : PcapRecord)
  | erf (r : ErfRecord)
deriving DecidableEq

/-- The bytes a record takes in a file. -/
def SavedRecord.size : SavedRecord → ℕ
  | .pcap r => 16 + r.data.length
  | .erf r => 18 + r.data.length

/-- The bytes in front of the first record. -/
def headerSize : FileFormat → ℕ
  | .pcap => 24
  | .erf => 0

/-- Read a whole file of the given format. -/
def readFile (format : FileFormat) (input : List UInt8) : Option (List SavedRecord) :=
  match format with
  | .pcap => (readPcap input).map fun file => file.records.map .pcap
  | .erf => (readErf input).map fun records => records.map .erf

section

variable (host : ByteOrder) (o : Options)

/-- What the program hands to `fwrite` for one frame. -/
def recordOf (f : CapturedFrame) : Written :=
  writePacket host o f.data f.len f.tsps

/-- The file of these frames. -/
def fileBytes (frames : List CapturedFrame) : List UInt8 :=
  (fileHeader host o).bytes ++ frames.flatMap fun f => (recordOf host o f).bytes

/-- The record of a frame. -/
def savedRecord (f : CapturedFrame) : SavedRecord :=
  match o.fileFormat with
  | .pcap => .pcap (pcapRecord o.nsecPcap o.snaplen f)
  | .erf => .erf (erfRecord o.portNumber o.snaplen f)

theorem readFile_fileBytes (nonneg : 0 ≤ o.snaplen.toInt) (frames : List CapturedFrame) :
    readFile o.fileFormat (fileBytes host o frames) = some (frames.map (savedRecord o)) := by
  cases format : o.fileFormat with
  | pcap =>
      have record : savedRecord o = SavedRecord.pcap ∘ pcapRecord o.nsecPcap o.snaplen := by
        funext f
        simp [savedRecord, format]
      simp only [readFile, fileBytes, fileHeader, recordOf, writePacket, format, record,
        readPcap_written host o.nsecPcap nonneg frames, Option.map_some, List.map_map]
  | erf =>
      have record : savedRecord o = SavedRecord.erf ∘ erfRecord o.portNumber o.snaplen := by
        funext f
        simp [savedRecord, format]
      have headless : fileBytes host o frames = frames.flatMap fun f =>
          (writeErfPacket host f.data f.len f.tsps o.portNumber o.snaplen).bytes := by
        simp [fileBytes, fileHeader, recordOf, writePacket, format, Written.bytes]
      rw [headless, readFile, readErf_written host o.portNumber nonneg frames, record,
        Option.map_some, List.map_map]

end

/-- What is accepted has the length of its header and records. -/
theorem readFile_length {format : FileFormat} {input : List UInt8} {records : List SavedRecord}
    (read : readFile format input = some records) :
    input.length = headerSize format + (records.map SavedRecord.size).sum := by
  cases format with
  | pcap =>
      obtain ⟨file, found, rfl⟩ := Option.map_eq_some_iff.1 read
      rw [readPcap_length found, List.map_map]
      rfl
  | erf =>
      obtain ⟨erfRecords, found, rfl⟩ := Option.map_eq_some_iff.1 read
      rw [readErf_length found, List.map_map]
      exact (Nat.zero_add _).symm

end ExanicCapture.Capture
