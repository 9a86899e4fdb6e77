/-
# Capture.Snaplen -- what `-s` keeps of a frame

`main` stores `atoi(optarg)` in `snaplen` and compares it with the frame's length.
Nothing looks at its sign: a negative value is less than every length, so it is what
is kept, and it becomes the block length `fwrite` is given, an unsigned 64-bit number.
The hexdump counts up to it, and stops before the first byte.

`contained_iff`: the program stays inside every frame exactly if the value is not
negative.  The values that `atoi` wraps around, from 2147483648 on, are among the
negative ones.
-/
import ExanicCapture.Capture.Program
import ExanicCapture.Capture.Strtol
import ExanicCapture.Save.Hexdump

namespace ExanicCapture.Capture

set_option autoImplicit false

open Theory Save

/-! ## Inside the frame -/

/-- `caplen`, where a pcap record header has it. -/
def caplenField (host : ByteOrder) (hdr : List UInt8) : ℕ := host.value ((hdr.drop 8).take 4)

/-- `rlen - 18`, where an ERF record header has it, as 16 bits. -/
def rlenField (hdr : List UInt8) : ℕ :=
  (toUint16 (ByteOrder.big.value ((hdr.drop 10).take 2) - 18)).toNat

/-- A record header and bytes of the frame behind it are written, as many as the header
says, and their number is returned. -/
def Within (f : CapturedFrame) (recorded : List UInt8 → ℕ) (w : Written) : Prop :=
  ∃ hdr data, w.blocks = [hdr, data] ∧ data <+: f.bytes ∧ recorded hdr = data.length ∧
    w.returned = hdr.length + data.length

/-- None of the three consumers of a frame leaves it. -/
structure Contained (f : CapturedFrame) (snaplen : Int32) : Prop where
  pcap : ∀ host nsecPcap, Within f (caplenField host)
    (writePcapPacket host f.data f.len f.tsps nsecPcap snaplen)
  erf : ∀ host port, Within f rlenField (writeErfPacket host f.data f.len f.tsps port snaplen)
  hexdump : ∀ (o : Options) (t : Turn), o.snaplen = snaplen → t.rxBuf = f.data → t.rxSize = f.len →
    ∀ ascii length, Event.printf (.hexdump length) ∈ dump o t →
      (printHexdump ascii t.rxBuf (.ofInt length)).reads <+: List.range f.len

section

variable {f : CapturedFrame} {snaplen : Int32}

/-! ## The record headers -/

theorem field_of_layout {hdr front field back : List UInt8} {offset width : ℕ}
    (layout : hdr = front ++ (field ++ back)) (before : front.length = offset)
    (size : field.length = width) : (hdr.drop offset).take width = field := by
  rw [layout, List.drop_left' before, List.take_left' size]

theorem caplenField_bytes (host : ByteOrder) (h : PcapPkthdr) :
    caplenField host (h.bytes host) = h.caplen.toNat := by
  have word : h.caplen.toNat < 256 ^ 4 := h.caplen.toNat_lt
  have layout : h.bytes host = (host.bytes 4 h.tsSec.toNat ++ host.bytes 4 h.tsUsec.toNat) ++
      (host.bytes 4 h.caplen.toNat ++ host.bytes 4 h.len.toNat) := by
    simp only [PcapPkthdr.bytes, List.append_assoc]
  rw [caplenField, field_of_layout layout (by simp) (by simp), ByteOrder.value_bytes,
    Nat.mod_eq_of_lt word]

theorem rlenField_bytes (host : ByteOrder) (h : ErfHeader) {rlen : UInt16}
    (stored : h.rlen = htons host rlen) :
    rlenField (h.bytes host) = (toUint16 (rlen.toNat - 18)).toNat := by
  have word : rlen.toNat < 256 ^ 2 := rlen.toNat_lt
  have layout : h.bytes host =
      (host.bytes 4 h.tsFrac.toNat ++ host.bytes 4 h.tsSec.toNat ++ [h.type] ++ [h.flags]) ++
        (ByteOrder.big.bytes 2 rlen.toNat ++ (host.bytes 2 h.lctr.toNat ++
          (host.bytes 2 h.wlen.toNat ++ host.bytes 2 h.ethPad.toNat))) := by
    rw [← bytes_htons host, ← stored]
    simp only [ErfHeader.bytes, List.append_assoc]
  rw [rlenField, field_of_layout layout (by simp) (by simp), ByteOrder.value_bytes,
    Nat.mod_eq_of_lt word]

/-! ## The three consumers -/

/-- A block of a negative length is longer than every frame. -/
theorem not_within_of_negative (negative : snaplen.toInt < 0) {recorded : List UInt8 → ℕ}
    {w : Written} {hdr : List UInt8}
    (blocks : w.blocks = [hdr, Memory.front (toSizeT (caplen f.len snaplen)) f.data]) :
    ¬ Within f recorded w := by
  rintro ⟨_, data, blocks', inside, -, -⟩
  have same : Memory.front (toSizeT (caplen f.len snaplen)) f.data = data := by
    rw [blocks] at blocks'
    simpa using (List.cons.inj blocks').2
  have length := inside.length_le
  have kept : caplen f.len snaplen = snaplen.toInt := if_pos (by omega)
  have size : toSizeT snaplen.toInt = (snaplen.toInt % 2 ^ 64).toNat := BitVec.toNat_ofInt _
  have low := snaplen.le_toInt
  have bound := f.fits
  rw [← same, Memory.front_length, CapturedFrame.bytes, Memory.front_length, kept, size] at length
  unfold rxBufSize at bound
  omega

theorem writePcapPacket_within (nonneg : 0 ≤ snaplen.toInt) (host : ByteOrder) (nsecPcap : Bool) :
    Within f (caplenField host) (writePcapPacket host f.data f.len f.tsps nsecPcap snaplen) := by
  refine ⟨_, _, rfl, ?_, ?_, ?_⟩
  · rw [front_caplen nonneg]
    exact List.take_prefix _ _
  · have len_lt := f.len_lt
    have kept := caplen_eq nonneg f
    have stored := toUint32_toNat_of_lt (n := caplen f.len snaplen) (by omega) (by omega)
    rw [caplenField_bytes, Memory.front_length, toSizeT_caplen nonneg]
    show (toUint32 (caplen f.len snaplen)).toNat = _
    omega
  · rw [writePcapPacket_returned nonneg]
    simp [writePcapPacket, Written.bytes]

theorem writeErfPacket_within (nonneg : 0 ≤ snaplen.toInt) (host : ByteOrder) (port : Int32) :
    Within f rlenField (writeErfPacket host f.data f.len f.tsps port snaplen) := by
  have len_lt := f.len_lt
  have kept := caplen_eq nonneg f
  refine ⟨_, _, rfl, ?_, ?_, ?_⟩
  · rw [front_caplen nonneg]
    exact List.take_prefix _ _
  · have stored := rlen_exact nonneg f
    rw [rlenField_bytes host _ rfl, Memory.front_length, toSizeT_caplen nonneg]
    have whole : (((toUint16 (caplen f.len snaplen + 18)).toNat : ℕ) : Int) - 18 =
        caplen f.len snaplen := by omega
    rw [whole, kept]
    have := toUint16_toNat_of_lt (n := (min f.len snaplen.toInt.toNat : ℕ)) (by omega) (by omega)
    omega
  · have := toUint32_toNat_of_lt (n := 18 + caplen f.len snaplen) (by omega) (by omega)
    rw [ErfHeader.bytes_length, Memory.front_length, toSizeT_caplen nonneg]
    show (toUint32 (18 + caplen f.len snaplen)).toNat = _
    omega

/-- The hexdump stays inside the frame for every value. -/
theorem dump_within {o : Options} {t : Turn} (same : o.snaplen = snaplen)
    (size : t.rxSize = f.len) (ascii : ℕ → Char) {length : Int}
    (prints : Event.printf (.hexdump length) ∈ dump o t) :
    (printHexdump ascii t.rxBuf (.ofInt length)).reads <+: List.range f.len := by
  have positive : t.rxSize > 0 := by
    have := f.nonempty
    omega
  have which : length = caplen f.len snaplen := by
    rw [dump, if_pos positive, same, size] at prints
    simpa [caplen] using prints
  have bound := f.len_lt
  have low := snaplen.le_toInt
  have le : caplen f.len snaplen ≤ f.len ∧ -2147483648 ≤ caplen f.len snaplen := by
    unfold caplen
    split <;> omega
  have exact : (Int32.ofInt (caplen f.len snaplen)).toInt = caplen f.len snaplen := by
    rw [Int32.toInt_ofInt]
    have modulus : Int32.size = 4294967296 := rfl
    exact Int.bmod_eq_of_le_mul_two (by omega) (by omega)
  rw [printHexdump_reads, which, exact]
  have front : List.range (caplen f.len snaplen).toNat =
      (List.range f.len).take (caplen f.len snaplen).toNat := by
    rw [List.take_range, Nat.min_eq_left (by omega)]
  rw [front]
  exact List.take_prefix _ _

/-- **`-s` is safe exactly for values from 0 on.** -/
theorem contained_iff (f : CapturedFrame) (optarg : CStr) :
    Contained f (atoi optarg) ↔ 0 ≤ (atoi optarg).toInt := by
  constructor
  · intro contained
    by_contra negative
    exact not_within_of_negative (by omega) rfl (contained.pcap .little false)
  · intro nonneg
    refine ⟨?_, ?_, ?_⟩
    · intro host nsecPcap
      exact writePcapPacket_within nonneg host nsecPcap
    · intro host port
      exact writeErfPacket_within nonneg host port
    · intro o t same _ size ascii length prints
      exact dump_within same size ascii prints

end

/-! ## Poles: `-s -1` -/

namespace Poles

/-- Of a frame of three bytes `fwrite` is asked for 2^64 - 1. -/
theorem negative_snaplen_overreads :
    (∃ hdr data,
      (writePcapPacket .little Save.Poles.frame.data Save.Poles.frame.len Save.Poles.frame.tsps
        false (atoi ['-', '1'])).blocks = [hdr, data] ∧ data.length = 18446744073709551615) ∧
      ¬ ∀ f optarg, Contained f (atoi optarg) := by
  refine ⟨⟨_, _, rfl, ?_⟩, fun always => ?_⟩
  · rw [Memory.front_length]
    decide
  · have negative : (atoi ['-', '1']).toInt < 0 := by decide
    exact not_within_of_negative negative rfl
      ((always Save.Poles.frame ['-', '1']).pcap .little false)

end Poles

end ExanicCapture.Capture
