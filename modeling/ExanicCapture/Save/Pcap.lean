/-
# Save.Pcap -- the pcap format

`write_pcap_header` and `write_pcap_packet`, which copy structs of the host's byte
order into the file, and a reader of the format, which learns the byte order and
the time unit from the magic number.  `readPcap_written` is the round trip; it holds
on hosts of either byte order.
-/
import ExanicCapture.Save.Frame
import ExanicCapture.Theory.RecordStream

namespace ExanicCapture.Save

set_option autoImplicit false

open Theory

/-! ## The structs of `pcap-structures.h` -/

/-- `TCPDUMP_MAGIC`. -/
def tcpdumpMagic : UInt32 := 0xa1b2c3d4
/-- `NSEC_TCPDUMP_MAGIC`. -/
def nsecTcpdumpMagic : UInt32 := 0xa1b23c4d
/-- `PCAP_VERSION_MAJOR`. -/
def pcapVersionMajor : UInt16 := 2
/-- `PCAP_VERSION_MINOR`. -/
def pcapVersionMinor : UInt16 := 4
/-- `DLT_EN10MB`. -/
def dltEn10mb : UInt32 := 1

/-- `struct pcap_file_header`. -/
structure PcapFileHeader where
  magic : UInt32
  versionMajor : UInt16
  versionMinor : UInt16
  thiszone : UInt32
  sigfigs : UInt32
  snaplen : UInt32
  linktype : UInt32
deriving DecidableEq

/-- `struct pcap_pkthdr`. -/
structure PcapPkthdr where
  tsSec : UInt32
  tsUsec : UInt32
  caplen : UInt32
  len : UInt32
deriving DecidableEq

def PcapFileHeader.bytes (host : ByteOrder) (h : PcapFileHeader) : List UInt8 :=
  host.bytes 4 h.magic.toNat ++ host.bytes 2 h.versionMajor.toNat ++
    host.bytes 2 h.versionMinor.toNat ++ host.bytes 4 h.thiszone.toNat ++
    host.bytes 4 h.sigfigs.toNat ++ host.bytes 4 h.snaplen.toNat ++ host.bytes 4 h.linktype.toNat

def PcapPkthdr.bytes (host : ByteOrder) (h : PcapPkthdr) : List UInt8 :=
  host.bytes 4 h.tsSec.toNat ++ host.bytes 4 h.tsUsec.toNat ++ host.bytes 4 h.caplen.toNat ++
    host.bytes 4 h.len.toNat

@[simp] theorem PcapFileHeader.bytes_length (host : ByteOrder) (h : PcapFileHeader) :
    (h.bytes host).length = 24 := by
  simp [bytes]

@[simp] theorem PcapPkthdr.bytes_length (host : ByteOrder) (h : PcapPkthdr) :
    (h.bytes host).length = 16 := by
  simp [bytes]

/-! ## The writers -/

/-- `write_pcap_header`. -/
def writePcapHeader (host : ByteOrder) (nsecPcap : Bool) (snaplen : Int32) : Written :=
  let hdr : PcapFileHeader :=
    { magic := if nsecPcap then nsecTcpdumpMagic else tcpdumpMagic
      versionMajor := pcapVersionMajor
      versionMinor := pcapVersionMinor
      thiszone := 0
      sigfigs := 0
      snaplen := toUint32 snaplen.toInt
      linktype := dltEn10mb }
  { blocks := [hdr.bytes host], returned := 24 }

/-- `write_pcap_packet`. -/
def writePcapPacket (host : ByteOrder) (data : ℕ → UInt8) (len : Int) (tsps : ExanicTimespecps)
    (nsecPcap : Bool) (snaplen : Int32) : Written :=
  let hdr : PcapPkthdr :=
    { tsSec := toUint32 tsps.tvSec
      tsUsec :=
        toUint32 (if nsecPcap then tsps.tvPsec.tdiv 1000 else (tsps.tvPsec.tdiv 1000).tdiv 1000)
      caplen := toUint32 (caplen len snaplen)
      len := toUint32 len }
  { blocks := [hdr.bytes host, Memory.front (toSizeT (caplen len snaplen)) data]
    returned := (toUint32 (16 + caplen len snaplen)).toNat }

/-! ## The reader -/

/-- One record of a file. -/
structure PcapRecord where
  tsSec : ℕ
  tsUsec : ℕ
  len : ℕ
  data : List UInt8
deriving DecidableEq

/-- A whole file: its time unit, the announced snaplen, the link type and the
records. -/
structure PcapFile where
  nsec : Bool
  snaplen : ℕ
  linktype : ℕ
  records : List PcapRecord
deriving DecidableEq

/-- The byte order and the time unit a magic number tells. -/
def readMagic (magic : List UInt8) : Option (ByteOrder × Bool) :=
  if ByteOrder.little.value magic = tcpdumpMagic.toNat then some (.little, false)
  else if ByteOrder.little.value magic = nsecTcpdumpMagic.toNat then some (.little, true)
  else if ByteOrder.big.value magic = tcpdumpMagic.toNat then some (.big, false)
  else if ByteOrder.big.value magic = nsecTcpdumpMagic.toNat then some (.big, true)
  else none

/-- A 16-byte record header and the `caplen` bytes behind it. -/
def readPcapRecord (order : ByteOrder) (input : List UInt8) :
    Option (PcapRecord × List UInt8) := do
  let (tsSec, input) ← readUInt order 4 input
  let (tsUsec, input) ← readUInt order 4 input
  let (caplen, input) ← readUInt order 4 input
  let (len, input) ← readUInt order 4 input
  let (data, input) ← take caplen input
  return ({ tsSec, tsUsec, len, data }, input)

/-- The 24-byte file header, then records to the end of the file. -/
def readPcap (input : List UInt8) : Option PcapFile := do
  let (magic, input) ← take 4 input
  let (order, nsec) ← readMagic magic
  let (_, input) ← readUInt order 2 input
  let (_, input) ← readUInt order 2 input
  let (_, input) ← readUInt order 4 input
  let (_, input) ← readUInt order 4 input
  let (snaplen, input) ← readUInt order 4 input
  let (linktype, input) ← readUInt order 4 input
  let records ← RecordStream.decodeAll (readPcapRecord order) input
  return { nsec, snaplen, linktype, records }

/-! ## Reading what was written -/

theorem readMagic_written (host : ByteOrder) (nsecPcap : Bool) :
    readMagic (host.bytes 4 (if nsecPcap then nsecTcpdumpMagic else tcpdumpMagic).toNat) =
      some (host, nsecPcap) := by
  cases host <;> cases nsecPcap <;> decide

/-- The record of a frame. -/
def pcapRecord (nsecPcap : Bool) (snaplen : Int32) (f : CapturedFrame) : PcapRecord :=
  { tsSec := (toUint32 f.tsps.tvSec).toNat
    tsUsec :=
      (toUint32 (if nsecPcap then f.tsps.tvPsec.tdiv 1000
        else (f.tsps.tvPsec.tdiv 1000).tdiv 1000)).toNat
    len := f.len
    data := f.bytes.take snaplen.toInt.toNat }

section

variable {host : ByteOrder} {nsecPcap : Bool} {snaplen : Int32}

theorem readPcap_header (rest : List UInt8) :
    readPcap ((writePcapHeader host nsecPcap snaplen).bytes ++ rest) =
      (RecordStream.decodeAll (readPcapRecord host) rest).map fun records =>
        { nsec := nsecPcap, snaplen := (toUint32 snaplen.toInt).toNat
          linktype := dltEn10mb.toNat, records } := by
  simp only [writePcapHeader, Written.bytes, List.flatten_cons, List.flatten_nil, List.append_nil,
    PcapFileHeader.bytes, List.append_assoc, readPcap, Option.bind_eq_bind]
  rw [take_append (ByteOrder.bytes_length _ _ _)]
  simp only [Option.bind_some, readMagic_written, readUInt_uint32, readUInt_uint16]
  cases RecordStream.decodeAll (readPcapRecord host) rest <;> rfl

theorem readPcapRecord_written (nonneg : 0 ≤ snaplen.toInt) (f : CapturedFrame)
    (rest : List UInt8) :
    readPcapRecord host
        ((writePcapPacket host f.data f.len f.tsps nsecPcap snaplen).bytes ++ rest) =
      some (pcapRecord nsecPcap snaplen f, rest) := by
  have len_lt := f.len_lt
  have len : (toUint32 f.len).toNat = f.len := by
    have := toUint32_toNat_of_lt (n := f.len) (by omega) (by omega)
    omega
  have kept : (f.bytes.take snaplen.toInt.toNat).length =
      (toUint32 (caplen f.len snaplen)).toNat := by
    have caplen_eq := caplen_eq nonneg f
    have := toUint32_toNat_of_lt (n := caplen f.len snaplen) (by omega) (by omega)
    rw [List.length_take, CapturedFrame.bytes, Memory.front_length]
    omega
  simp only [writePcapPacket, Written.bytes, List.flatten_cons, List.flatten_nil, List.append_nil,
    PcapPkthdr.bytes, List.append_assoc, readPcapRecord, Option.bind_eq_bind, readUInt_uint32,
    Option.bind_some, front_caplen nonneg, take_append kept]
  rw [len]
  rfl

theorem writePcapPacket_ne_nil (data : ℕ → UInt8) (len : Int) (tsps : ExanicTimespecps) :
    (writePcapPacket host data len tsps nsecPcap snaplen).bytes ≠ [] := by
  simp [writePcapPacket, Written.bytes, ← List.length_pos_iff]

/-- A file reads back as one record per frame. -/
theorem readPcap_written (host : ByteOrder) (nsecPcap : Bool) (nonneg : 0 ≤ snaplen.toInt) (frames : List CapturedFrame) :
    readPcap ((writePcapHeader host nsecPcap snaplen).bytes ++ frames.flatMap fun f =>
        (writePcapPacket host f.data f.len f.tsps nsecPcap snaplen).bytes) =
      some
        { nsec := nsecPcap, snaplen := (toUint32 snaplen.toInt).toNat
          linktype := dltEn10mb.toNat, records := frames.map (pcapRecord nsecPcap snaplen) } := by
  rw [readPcap_header, RecordStream.decodeAll_flatMap
    (fun f _ rest => readPcapRecord_written nonneg f rest)
    (fun f _ => writePcapPacket_ne_nil f.data f.len f.tsps)]
  rfl

/-- What is returned is what was handed to `fwrite`. -/
theorem writePcapHeader_returned :
    (writePcapHeader host nsecPcap snaplen).returned =
      (writePcapHeader host nsecPcap snaplen).bytes.length := by
  simp [writePcapHeader, Written.bytes]

theorem writePcapPacket_returned (nonneg : 0 ≤ snaplen.toInt) (f : CapturedFrame) :
    (writePcapPacket host f.data f.len f.tsps nsecPcap snaplen).returned =
      (writePcapPacket host f.data f.len f.tsps nsecPcap snaplen).bytes.length := by
  have len_lt := f.len_lt
  have caplen_eq := caplen_eq nonneg f
  have := toUint32_toNat_of_lt (n := 16 + caplen f.len snaplen) (by omega) (by omega)
  simp only [writePcapPacket, Written.bytes, List.flatten_cons, List.flatten_nil, List.append_nil,
    List.length_append, PcapPkthdr.bytes_length, Memory.front_length, toSizeT_caplen nonneg]
  omega

end

/-! ## What is accepted is well formed -/

theorem readPcapRecord_length {order : ByteOrder} {input rest : List UInt8} {r : PcapRecord}
    (read : readPcapRecord order input = some (r, rest)) :
    input.length = 16 + r.data.length + rest.length := by
  simp only [readPcapRecord, Option.bind_eq_bind, Option.bind_eq_some_iff, Prod.exists] at read
  obtain ⟨_, _, sec, _, _, usec, _, _, kept, _, _, len, data, _, taken, same⟩ := read
  cases same
  have sec := readUInt_length sec
  have usec := readUInt_length usec
  have kept := readUInt_length kept
  have len := readUInt_length len
  obtain ⟨size, taken⟩ := take_length taken
  show _ = 16 + data.length + _
  omega

/-- A file is its 24-byte header and its records. -/
theorem readPcap_length {input : List UInt8} {file : PcapFile} (read : readPcap input = some file) :
    input.length = 24 + (file.records.map fun r => 16 + r.data.length).sum := by
  simp only [readPcap, Option.bind_eq_bind, Option.bind_eq_some_iff, Prod.exists] at read
  obtain ⟨_, _, magic, order, _, _, _, _, major, _, _, minor, _, _, zone, _, _, sigfigs, _, _,
    snaplen, _, _, linktype, records, decoded, same⟩ := read
  cases same
  have magic := (take_length magic).2
  have major := readUInt_length major
  have minor := readUInt_length minor
  have zone := readUInt_length zone
  have sigfigs := readUInt_length sigfigs
  have snaplen := readUInt_length snaplen
  have linktype := readUInt_length linktype
  have body := RecordStream.decodeAll_length
    (fun _ _ _ found => readPcapRecord_length found) decoded
  show _ = 24 + (records.map _).sum
  omega

/-! ## The round trip -/

/-- What a record says about its frame. -/
structure PcapRecord.Tells (nsecPcap : Bool) (snaplen : Int32) (f : CapturedFrame)
    (r : PcapRecord) : Prop where
  sec : (r.tsSec : Int) = f.tsps.tvSec
  subsec : (r.tsUsec : Int) = f.tsps.tvPsec / (if nsecPcap then 10 ^ 3 else 10 ^ 6)
  subsec_lt : r.tsUsec < if nsecPcap then 10 ^ 9 else 10 ^ 6
  len : r.len = f.len
  data : r.data = f.bytes.take snaplen.toInt.toNat
  within : (r.data.length : Int) ≤ snaplen.toInt

theorem pcapRecord_tells {nsecPcap : Bool} {snaplen : Int32} (nonneg : 0 ≤ snaplen.toInt)
    {f : CapturedFrame} (timed : f.Timed) :
    (pcapRecord nsecPcap snaplen f).Tells nsecPcap snaplen f := by
  obtain ⟨sec_nonneg, sec_lt, psec_nonneg, psec_lt⟩ := timed
  have divided : (if nsecPcap then f.tsps.tvPsec.tdiv 1000 else (f.tsps.tvPsec.tdiv 1000).tdiv 1000)
      = f.tsps.tvPsec / (if nsecPcap then 10 ^ 3 else 10 ^ 6) := by
    cases nsecPcap with
    | true => exact Int.tdiv_eq_ediv_of_nonneg psec_nonneg
    | false =>
        simp only [Bool.false_eq_true, if_false]
        rw [Int.tdiv_eq_ediv_of_nonneg psec_nonneg, Int.tdiv_eq_ediv_of_nonneg (by omega)]
        omega
  have below : 0 ≤ f.tsps.tvPsec / (if nsecPcap then 10 ^ 3 else 10 ^ 6) ∧
      f.tsps.tvPsec / (if nsecPcap then 10 ^ 3 else 10 ^ 6) <
        if nsecPcap then 10 ^ 9 else 10 ^ 6 := by
    cases nsecPcap <;> simp only [Bool.false_eq_true, if_false, if_true] <;> omega
  have subsec : ((pcapRecord nsecPcap snaplen f).tsUsec : Int) =
      f.tsps.tvPsec / (if nsecPcap then 10 ^ 3 else 10 ^ 6) := by
    rw [pcapRecord, divided]
    refine toUint32_toNat_of_lt below.1 (below.2.trans_le ?_)
    cases nsecPcap <;> decide
  refine ⟨toUint32_toNat_of_lt sec_nonneg sec_lt, subsec, ?_, rfl, rfl, ?_⟩
  · have := below.2
    rw [← subsec] at this
    cases nsecPcap <;> simp only [Bool.false_eq_true, if_false, if_true] at this ⊢ <;> omega
  · show ((f.bytes.take _).length : Int) ≤ _
    rw [List.length_take]
    omega

/-- **pcap decode undoes encode.**  A reader consumes the whole file and gets one
record per frame, in order, and the writers return the length of the file. -/
theorem readPcap_writePcap (host : ByteOrder) (nsecPcap : Bool) (snaplen : Int32)
    (nonneg : 0 ≤ snaplen.toInt) (frames : List CapturedFrame) (timed : ∀ f ∈ frames, f.Timed) :
    let header := writePcapHeader host nsecPcap snaplen
    let packets := frames.map fun f => writePcapPacket host f.data f.len f.tsps nsecPcap snaplen
    let file := header.bytes ++ packets.flatMap Written.bytes
    (∃ records, readPcap file =
        some { nsec := nsecPcap, snaplen := snaplen.toInt.toNat, linktype := dltEn10mb.toNat, records } ∧
      List.Forall₂ (PcapRecord.Tells nsecPcap snaplen) frames records) ∧
    header.returned + (packets.map Written.returned).sum = file.length := by
  intro header packets file
  have announced : (toUint32 snaplen.toInt).toNat = snaplen.toInt.toNat := by
    have := snaplen.toInt_lt
    have := toUint32_toNat_of_lt nonneg (by omega)
    omega
  refine ⟨⟨frames.map (pcapRecord nsecPcap snaplen), ?_, ?_⟩, ?_⟩
  · have read := readPcap_written host nsecPcap nonneg frames
    rw [announced] at read
    rw [← read]
    show readPcap (_ ++ packets.flatMap Written.bytes) = _
    rw [List.flatMap_map]
  · exact List.forall₂_map_right_iff.2
      (List.forall₂_same.2 fun f member => pcapRecord_tells nonneg (timed f member))
  · show _ = (header.bytes ++ packets.flatMap Written.bytes).length
    rw [List.length_append, List.length_flatMap, ← writePcapHeader_returned]
    refine congrArg (header.returned + List.sum ·) (List.map_congr_left ?_)
    intro w member
    obtain ⟨f, -, rfl⟩ := List.mem_map.1 member
    exact writePcapPacket_returned nonneg f

/-- Three frames on a big-endian host, the second one cut to two bytes. -/
theorem readPcap_writePcap_three :
    let packets := Poles.frames.map fun f => writePcapPacket .big f.data f.len f.tsps true 2
    let file := (writePcapHeader .big true 2).bytes ++ packets.flatMap Written.bytes
    (∃ records, readPcap file =
        some { nsec := true, snaplen := 2, linktype := dltEn10mb.toNat, records } ∧
      List.Forall₂ (PcapRecord.Tells true 2) Poles.frames records ∧
      records.map (fun r => (r.len, r.data)) = [(1, [0]), (3, [0, 1]), (2, [0, 1])]) ∧
    (writePcapHeader .big true 2).returned + (packets.map Written.returned).sum = file.length := by
  obtain ⟨⟨records, read, tells⟩, size⟩ :=
    readPcap_writePcap .big true 2 (by decide) Poles.frames Poles.frames_timed
  refine ⟨⟨records, read, tells, ?_⟩, size⟩
  cases tells with
  | cons first tells =>
      cases tells with
      | cons second tells =>
          cases tells with
          | cons third tells =>
              cases tells
              simp only [List.map_cons, List.map_nil, first.len, first.data, second.len,
                second.data, third.len, third.data]
              rfl

end ExanicCapture.Save
