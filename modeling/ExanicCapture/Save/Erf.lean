/-
# Save.Erf -- the ERF format

`write_erf_packet` and a reader of Ethernet ERF records.  The timestamp is a 64-bit
fixed-point number of seconds, little-endian, and the lengths are big-endian.
`readErf_writeErf` is the round trip, and says that the fixed-point conversion of
the code, `(ps << 20) / 5^12` in place of `(ps << 32) / 10^12`, is exact.
-/
import ExanicCapture.Save.Frame
import ExanicCapture.Theory.RecordStream

namespace ExanicCapture.Save

set_option autoImplicit false

open Theory

/-! ## The writer -/

/-- `htole32`. -/
def htole32 (host : ByteOrder) (n : UInt32) : UInt32 :=
  .ofNat (ByteOrder.recode host .little 4 n.toNat)

/-- `htons`. -/
def htons (host : ByteOrder) (n : UInt16) : UInt16 :=
  .ofNat (ByteOrder.recode host .big 2 n.toNat)

theorem bytes_htole32 (host : ByteOrder) (n : UInt32) :
    host.bytes 4 (htole32 host n).toNat = ByteOrder.little.bytes 4 n.toNat := by
  have small : ByteOrder.recode host .little 4 n.toNat < 2 ^ 32 := ByteOrder.recode_lt _ _ _ _
  rw [htole32, UInt32.toNat_ofNat', Nat.mod_eq_of_lt small, ByteOrder.bytes_recode]

theorem toNat_htons (host : ByteOrder) (n : UInt16) :
    (htons host n).toNat = ByteOrder.recode host .big 2 n.toNat := by
  have small : ByteOrder.recode host .big 2 n.toNat < 2 ^ 16 := ByteOrder.recode_lt _ _ _ _
  rw [htons, UInt16.toNat_ofNat', Nat.mod_eq_of_lt small]

theorem bytes_htons (host : ByteOrder) (n : UInt16) :
    host.bytes 2 (htons host n).toNat = ByteOrder.big.bytes 2 n.toNat := by
  rw [toNat_htons, ByteOrder.bytes_recode]

/-- `struct erf_record`. -/
structure ErfHeader where
  tsFrac : UInt32
  tsSec : UInt32
  type : UInt8
  flags : UInt8
  rlen : UInt16
  lctr : UInt16
  wlen : UInt16
  ethPad : UInt16
deriving DecidableEq

/-- The first `size_hdr = 18` bytes of the struct: its fields, without the two bytes
of padding behind them. -/
def ErfHeader.bytes (host : ByteOrder) (h : ErfHeader) : List UInt8 :=
  host.bytes 4 h.tsFrac.toNat ++ host.bytes 4 h.tsSec.toNat ++ [h.type] ++ [h.flags] ++
    host.bytes 2 h.rlen.toNat ++ host.bytes 2 h.lctr.toNat ++ host.bytes 2 h.wlen.toNat ++
    host.bytes 2 h.ethPad.toNat

@[simp] theorem ErfHeader.bytes_length (host : ByteOrder) (h : ErfHeader) :
    (h.bytes host).length = 18 := by
  simp [bytes]

/-- The picoseconds as a 32-bit binary fraction of a second. -/
def erfbinfrac (tvPsec : Int) : UInt32 :=
  let ps := toUint64 tvPsec
  ((ps <<< 20) / 244140625).toUInt32

/-- `write_erf_packet`. -/
def writeErfPacket (host : ByteOrder) (data : ℕ → UInt8) (len : Int) (tsps : ExanicTimespecps)
    (port : Int32) (snaplen : Int32) : Written :=
  let sizeHdr := 18
  let hdr : ErfHeader :=
    { tsSec := htole32 host (toUint32 tsps.tvSec)
      tsFrac := htole32 host (erfbinfrac tsps.tvPsec)
      -- type ETH with no extension header, variable length record
      type := 2
      flags := (1 : UInt8) <<< 2 ||| toUint8 (port &&& 3).toInt
      rlen := htons host (toUint16 (caplen len snaplen + sizeHdr))
      lctr := 0
      wlen := htons host (toUint16 len)
      ethPad := 0 }
  { blocks := [hdr.bytes host, Memory.front (toSizeT (caplen len snaplen)) data]
    returned := (toUint32 (sizeHdr + caplen len snaplen)).toNat }

/-! ## The reader -/

/-- One record of a file. -/
structure ErfRecord where
  timestamp : ℕ
  flags : ℕ
  rlen : ℕ
  wlen : ℕ
  data : List UInt8
deriving DecidableEq

/-- The port the record was captured on, modulo 4. -/
def ErfRecord.interface (r : ErfRecord) : ℕ := r.flags % 4

/-- An 18-byte Ethernet record header and the bytes up to `rlen`. -/
def readErfRecord (input : List UInt8) : Option (ErfRecord × List UInt8) := do
  let (timestamp, input) ← readUInt .little 8 input
  let (type, input) ← readUInt .big 1 input
  let (flags, input) ← readUInt .big 1 input
  let (rlen, input) ← readUInt .big 2 input
  let (_, input) ← take 2 input
  let (wlen, input) ← readUInt .big 2 input
  let (_, input) ← take 2 input
  if type = 2 ∧ 18 ≤ rlen then
    let (data, input) ← take (rlen - 18) input
    return ({ timestamp, flags, rlen, wlen, data }, input)
  else none

def readErf (input : List UInt8) : Option (List ErfRecord) :=
  RecordStream.decodeAll readErfRecord input

/-! ## Reading what was written -/

/-- The record of a frame. -/
def erfRecord (port : Int32) (snaplen : Int32) (f : CapturedFrame) : ErfRecord :=
  { timestamp := (erfbinfrac f.tsps.tvPsec).toNat + 2 ^ 32 * (toUint32 f.tsps.tvSec).toNat
    flags := ((1 : UInt8) <<< 2 ||| toUint8 (port &&& 3).toInt).toNat
    rlen := 18 + min f.len snaplen.toInt.toNat
    wlen := f.len
    data := f.bytes.take snaplen.toInt.toNat }

theorem port_and_three (port : Int32) : (port &&& 3).toInt = port.toInt % 4 := by
  have masked : (port &&& 3).toBitVec.toNat = port.toBitVec.toNat % 4 := by
    rw [Int32.toBitVec_and, BitVec.toNat_and]
    exact Nat.and_two_pow_sub_one_eq_mod _ 2
  have whole := BitVec.toInt_eq_toNat_cond port.toBitVec
  have part := BitVec.toInt_eq_toNat_cond (port &&& 3).toBitVec
  show (port &&& 3).toBitVec.toInt = port.toBitVec.toInt % 4
  omega

/-- The two low bits of the flags are the port's. -/
theorem erfRecord_interface (port snaplen : Int32) (f : CapturedFrame) :
    ((erfRecord port snaplen f).interface : Int) = port.toInt % 4 := by
  have low : 0 ≤ port.toInt % 4 ∧ port.toInt % 4 < 4 := by omega
  simp only [ErfRecord.interface, erfRecord, port_and_three]
  generalize port.toInt % 4 = bits at low
  have : bits = 0 ∨ bits = 1 ∨ bits = 2 ∨ bits = 3 := by omega
  rcases this with rfl | rfl | rfl | rfl <;> decide

section

variable {host : ByteOrder} {port snaplen : Int32}

theorem wlen_exact (f : CapturedFrame) : (toUint16 f.len).toNat = f.len := by
  have len_lt := f.len_lt
  have := toUint16_toNat_of_lt (n := f.len) (by omega) (by omega)
  omega

theorem rlen_exact (nonneg : 0 ≤ snaplen.toInt) (f : CapturedFrame) :
    ((toUint16 (caplen f.len snaplen + 18)).toNat : Int) = caplen f.len snaplen + 18 := by
  have len_lt := f.len_lt
  have kept := caplen_eq nonneg f
  exact toUint16_toNat_of_lt (by omega) (by omega)

theorem readErfRecord_written (nonneg : 0 ≤ snaplen.toInt) (f : CapturedFrame)
    (rest : List UInt8) :
    readErfRecord ((writeErfPacket host f.data f.len f.tsps port snaplen).bytes ++ rest) =
      some (erfRecord port snaplen f, rest) := by
  have rlen : (toUint16 (caplen f.len snaplen + 18)).toNat = 18 + min f.len snaplen.toInt.toNat := by
    have exact := rlen_exact nonneg f
    have kept := caplen_eq nonneg f
    omega
  have kept : (f.bytes.take snaplen.toInt.toNat).length =
      18 + min f.len snaplen.toInt.toNat - 18 := by
    rw [List.length_take, CapturedFrame.bytes, Memory.front_length]
    omega
  simp only [writeErfPacket, Written.bytes, List.flatten_cons, List.flatten_nil, List.append_nil,
    ErfHeader.bytes, List.append_assoc, readErfRecord, Option.bind_eq_bind, bytes_htole32,
    bytes_htons, readUInt_halves, readUInt_uint8, readUInt_uint16, Option.bind_some,
    take_append (host.bytes_length 2 _), front_caplen nonneg]
  rw [rlen, wlen_exact, if_pos ⟨rfl, Nat.le_add_right _ _⟩, take_append kept]
  rfl

theorem writeErfPacket_ne_nil (data : ℕ → UInt8) (len : Int) (tsps : ExanicTimespecps) :
    (writeErfPacket host data len tsps port snaplen).bytes ≠ [] := by
  simp [writeErfPacket, Written.bytes, ← List.length_pos_iff]

/-- A file reads back as one record per frame. -/
theorem readErf_written (host : ByteOrder) (port : Int32) (nonneg : 0 ≤ snaplen.toInt)
    (frames : List CapturedFrame) :
    readErf (frames.flatMap fun f =>
        (writeErfPacket host f.data f.len f.tsps port snaplen).bytes) =
      some (frames.map (erfRecord port snaplen)) :=
  RecordStream.decodeAll_flatMap
    (fun f _ rest => readErfRecord_written nonneg f rest)
    (fun f _ => writeErfPacket_ne_nil f.data f.len f.tsps)

end

/-! ## What is accepted is well formed -/

theorem readErfRecord_length {input rest : List UInt8} {r : ErfRecord}
    (read : readErfRecord input = some (r, rest)) :
    input.length = 18 + r.data.length + rest.length := by
  simp only [readErfRecord, Option.bind_eq_bind, Option.bind_eq_some_iff, Prod.exists] at read
  obtain ⟨_, _, timestamp, _, _, type, _, _, flags, rlen, _, size, _, _, lctr, _, _, wlen, _, _,
    pad, read⟩ := read
  split at read
  · rename_i wellFormed
    simp only [Option.bind_eq_some_iff, Prod.exists] at read
    obtain ⟨data, _, taken, same⟩ := read
    cases same
    have timestamp := readUInt_length timestamp
    have type := readUInt_length type
    have flags := readUInt_length flags
    have size := readUInt_length size
    have lctr := (take_length lctr).2
    have wlen := readUInt_length wlen
    have pad := (take_length pad).2
    obtain ⟨kept, taken⟩ := take_length taken
    show _ = 18 + data.length + _
    omega
  · cases read

/-- A file is its records. -/
theorem readErf_length {input : List UInt8} {records : List ErfRecord}
    (read : readErf input = some records) :
    input.length = (records.map fun r => 18 + r.data.length).sum :=
  RecordStream.decodeAll_length (fun _ _ _ found => readErfRecord_length found) read

/-! ## The timestamp -/

theorem shift_toNat {psec : Int} (nonneg : 0 ≤ psec) (small : psec < 10 ^ 12) :
    ((toUint64 psec <<< 20).toNat : Int) = psec * 2 ^ 20 := by
  have ps := toUint64_toNat_of_lt nonneg (by omega)
  have shifted : (toUint64 psec <<< 20).toNat = (toUint64 psec).toNat * 2 ^ 20 := by
    rw [UInt64.toNat_shiftLeft, Nat.shiftLeft_eq, Nat.mod_eq_of_lt]
    · rfl
    · show _ * 2 ^ 20 < 2 ^ 64
      omega
  omega

theorem erfbinfrac_toNat {psec : Int} (nonneg : 0 ≤ psec) (small : psec < 10 ^ 12) :
    ((erfbinfrac psec).toNat : Int) = psec * 2 ^ 20 / 244140625 := by
  have shifted := shift_toNat nonneg small
  have frac : (erfbinfrac psec).toNat = (toUint64 psec <<< 20).toNat / 244140625 % 2 ^ 32 := by
    rw [erfbinfrac, UInt64.toNat_toUInt32, UInt64.toNat_div]
    rfl
  have fits : (toUint64 psec <<< 20).toNat / 244140625 < 2 ^ 32 := by omega
  rw [Nat.mod_eq_of_lt fits] at frac
  omega

/-- The picoseconds since the epoch. -/
def CapturedFrame.time (f : CapturedFrame) : Int :=
  f.tsps.tvSec * 10 ^ 12 + f.tsps.tvPsec

theorem erfRecord_timestamp (port snaplen : Int32) {f : CapturedFrame} (timed : f.Timed) :
    ((erfRecord port snaplen f).timestamp : Int) = f.time * 2 ^ 32 / 10 ^ 12 := by
  obtain ⟨sec_nonneg, sec_lt, psec_nonneg, psec_lt⟩ := timed
  have sec := toUint32_toNat_of_lt sec_nonneg sec_lt
  have frac := erfbinfrac_toNat psec_nonneg psec_lt
  simp only [erfRecord, CapturedFrame.time]
  omega

/-- What a record says about its frame. -/
structure ErfRecord.Tells (port snaplen : Int32) (f : CapturedFrame) (r : ErfRecord) : Prop where
  timestamp : (r.timestamp : Int) = f.time * 2 ^ 32 / 10 ^ 12
  interface : (r.interface : Int) = port.toInt % 4
  rlen : r.rlen = 18 + min f.len snaplen.toInt.toNat
  wlen : r.wlen = f.len
  data : r.data = f.bytes.take snaplen.toInt.toNat

/-- The fixed-width intermediates of the writer are the exact integers: nothing
overflows. -/
structure ErfFits (snaplen : Int32) (f : CapturedFrame) : Prop where
  shift : ((toUint64 f.tsps.tvPsec <<< 20).toNat : Int) = f.tsps.tvPsec * 2 ^ 20
  frac : ((erfbinfrac f.tsps.tvPsec).toNat : Int) = f.tsps.tvPsec * 2 ^ 20 / 244140625
  rlen : ((toUint16 (caplen f.len snaplen + 18)).toNat : Int) = caplen f.len snaplen + 18
  wlen : (toUint16 f.len).toNat = f.len

theorem erfFits {snaplen : Int32} (nonneg : 0 ≤ snaplen.toInt) {f : CapturedFrame}
    (timed : f.Timed) : ErfFits snaplen f where
  shift := shift_toNat timed.psec_nonneg timed.psec_lt
  frac := erfbinfrac_toNat timed.psec_nonneg timed.psec_lt
  rlen := rlen_exact nonneg f
  wlen := wlen_exact f

theorem erfRecord_tells (port snaplen : Int32) {f : CapturedFrame} (timed : f.Timed) :
    (erfRecord port snaplen f).Tells port snaplen f :=
  ⟨erfRecord_timestamp port snaplen timed, erfRecord_interface port snaplen f, rfl, rfl, rfl⟩

/-- Later frames do not get earlier timestamps. -/
theorem ErfRecord.Tells.mono {port snaplen : Int32} {f f' : CapturedFrame} {r r' : ErfRecord}
    (tells : r.Tells port snaplen f) (tells' : r'.Tells port snaplen f')
    (earlier : f.time ≤ f'.time) : r.timestamp ≤ r'.timestamp := by
  have timestamp := tells.timestamp
  have timestamp' := tells'.timestamp
  omega

/-- **ERF decode undoes encode.**  A reader consumes the whole file and gets one
record per frame, in order, with the exact time in 2^-32 seconds; nothing overflows
on the way, and the timestamps are monotone in the times. -/
theorem readErf_writeErf (host : ByteOrder) (port snaplen : Int32) (nonneg : 0 ≤ snaplen.toInt)
    (frames : List CapturedFrame) (timed : ∀ f ∈ frames, f.Timed) :
    (∀ f ∈ frames, ErfFits snaplen f) ∧
      ∃ records,
        readErf (frames.flatMap fun f =>
            (writeErfPacket host f.data f.len f.tsps port snaplen).bytes) = some records ∧
          List.Forall₂ (ErfRecord.Tells port snaplen) frames records ∧
          ∀ f r f' r', (f, r) ∈ frames.zip records → (f', r') ∈ frames.zip records →
            f.time ≤ f'.time → r.timestamp ≤ r'.timestamp := by
  refine ⟨fun f member => erfFits nonneg (timed f member), frames.map (erfRecord port snaplen),
    readErf_written host port nonneg frames, ?_, ?_⟩
  · exact List.forall₂_map_right_iff.2
      (List.forall₂_same.2 fun f member => erfRecord_tells port snaplen (timed f member))
  · intro f r f' r' paired paired' earlier
    have tells : ∀ f r, (f, r) ∈ frames.zip (frames.map (erfRecord port snaplen)) →
        r.Tells port snaplen f := by
      intro f r paired
      rw [← List.map_prod_left_eq_zip] at paired
      obtain ⟨g, member, same⟩ := List.mem_map.1 paired
      cases same
      exact erfRecord_tells port snaplen (timed _ member)
    exact (tells f r paired).mono (tells f' r' paired') earlier

/-- Three frames on port 6 of a big-endian host, the second one cut to two bytes. -/
theorem readErf_writeErf_three :
    (∀ f ∈ Poles.frames, ErfFits 2 f) ∧
      ∃ records,
        readErf (Poles.frames.flatMap fun f =>
            (writeErfPacket .big f.data f.len f.tsps 6 2).bytes) = some records ∧
          List.Forall₂ (ErfRecord.Tells 6 2) Poles.frames records ∧
          records.map (fun r => (r.rlen, r.wlen, r.data)) =
            [(19, 1, [0]), (20, 3, [0, 1]), (20, 2, [0, 1])] := by
  obtain ⟨fits, records, read, tells, -⟩ :=
    readErf_writeErf .big 6 2 (by decide) Poles.frames Poles.frames_timed
  refine ⟨fits, records, read, tells, ?_⟩
  cases tells with
  | cons first tells =>
      cases tells with
      | cons second tells =>
          cases tells with
          | cons third tells =>
              cases tells
              simp only [List.map_cons, List.map_nil, first.rlen, first.wlen, first.data,
                second.rlen, second.wlen, second.data, third.rlen, third.wlen, third.data]
              rfl

end ExanicCapture.Save
