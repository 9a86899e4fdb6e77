/-
# Save.Frame -- frames on their way into a save file

What the two record writers of `main.c` share: the C conversions they rely on, the
captured frame they are given, the length they keep of it (`caplen`), and what they
do with it (`Written`): the blocks they hand to `fwrite`, one after another, and the
byte count they return.
-/
import ExanicCapture.Theory.ByteOrder
import ExanicCapture.Theory.Memory

namespace ExanicCapture.Save

set_option autoImplicit false

open Theory

/-! ## Conversions -/

/-- Conversion to `uint32_t`. -/
def toUint32 (n : Int) : UInt32 := .ofBitVec (.ofInt 32 n)

/-- Conversion to `uint8_t`. -/
def toUint8 (n : Int) : UInt8 := .ofBitVec (.ofInt 8 n)

/-- Conversion to `uint16_t`. -/
def toUint16 (n : Int) : UInt16 := .ofBitVec (.ofInt 16 n)

/-- Conversion to `uint64_t`. -/
def toUint64 (n : Int) : UInt64 := .ofBitVec (.ofInt 64 n)

/-- Conversion to `size_t`. -/
def toSizeT (n : Int) : ℕ := (BitVec.ofInt 64 n).toNat

theorem toUint32_toNat (n : Int) : (toUint32 n).toNat = (n % 2 ^ 32).toNat :=
  BitVec.toNat_ofInt n

theorem toUint16_toNat (n : Int) : (toUint16 n).toNat = (n % 2 ^ 16).toNat :=
  BitVec.toNat_ofInt n

theorem toUint32_toNat_of_lt {n : Int} (nonneg : 0 ≤ n) (small : n < 2 ^ 32) :
    ((toUint32 n).toNat : Int) = n := by
  rw [toUint32_toNat, Int.emod_eq_of_lt nonneg small, Int.toNat_of_nonneg nonneg]

theorem toUint16_toNat_of_lt {n : Int} (nonneg : 0 ≤ n) (small : n < 2 ^ 16) :
    ((toUint16 n).toNat : Int) = n := by
  rw [toUint16_toNat, Int.emod_eq_of_lt nonneg small, Int.toNat_of_nonneg nonneg]

theorem toUint64_toNat_of_lt {n : Int} (nonneg : 0 ≤ n) (small : n < 2 ^ 64) :
    ((toUint64 n).toNat : Int) = n := by
  have exact : (toUint64 n).toNat = (n % 2 ^ 64).toNat := BitVec.toNat_ofInt n
  rw [exact, Int.emod_eq_of_lt nonneg small, Int.toNat_of_nonneg nonneg]

theorem toSizeT_of_lt {n : Int} (nonneg : 0 ≤ n) (small : n < 2 ^ 64) : (toSizeT n : Int) = n := by
  rw [toSizeT, BitVec.toNat_ofInt]
  omega

/-! ## Frames -/

/-- `struct exanic_timespecps`. -/
structure ExanicTimespecps where
  tvSec : Int
  tvPsec : Int
deriving DecidableEq

/-- The size of `rx_buf` in `main`. -/
def rxBufSize : ℕ := 16384

/-- A frame as the capture loop has it: the contents of `rx_buf`, `rx_size` and the
time it was given. -/
structure CapturedFrame where
  data : ℕ → UInt8
  len : ℕ
  tsps : ExanicTimespecps
  nonempty : 0 < len
  fits : len ≤ rxBufSize

namespace CapturedFrame

def bytes (f : CapturedFrame) : List UInt8 := Memory.front f.len f.data

/-- The time is one of a 32-bit second counter. -/
structure Timed (f : CapturedFrame) : Prop where
  sec_nonneg : 0 ≤ f.tsps.tvSec
  sec_lt : f.tsps.tvSec < 2 ^ 32
  psec_nonneg : 0 ≤ f.tsps.tvPsec
  psec_lt : f.tsps.tvPsec < 10 ^ 12

theorem len_lt (f : CapturedFrame) : (f.len : Int) < 2 ^ 15 := by
  have := f.fits
  unfold rxBufSize at this
  omega

end CapturedFrame

/-- `(len > snaplen) ? snaplen : len`. -/
def caplen (len : Int) (snaplen : Int32) : Int :=
  if len > snaplen.toInt then snaplen.toInt else len

section

variable {snaplen : Int32} (nonneg : 0 ≤ snaplen.toInt)
include nonneg

theorem caplen_eq (f : CapturedFrame) :
    caplen f.len snaplen = (min f.len snaplen.toInt.toNat : ℕ) := by
  unfold caplen
  split <;> omega

theorem toSizeT_caplen (f : CapturedFrame) :
    toSizeT (caplen f.len snaplen) = min f.len snaplen.toInt.toNat := by
  have := f.len_lt
  have kept := caplen_eq nonneg f
  have whole := toSizeT_of_lt (n := caplen f.len snaplen) (by omega) (by omega)
  omega

/-- The bytes that are kept are the first ones of the frame. -/
theorem front_caplen (f : CapturedFrame) :
    Memory.front (toSizeT (caplen f.len snaplen)) f.data = f.bytes.take snaplen.toInt.toNat := by
  rw [toSizeT_caplen nonneg, CapturedFrame.bytes]
  rcases Nat.le_total f.len snaplen.toInt.toNat with short | long
  · rw [Nat.min_eq_left short, List.take_of_length_le (by simpa using short)]
  · rw [Nat.min_eq_right long, Memory.front_take long]

end

/-! ## What a writer does -/

/-- The blocks a writer hands to `fwrite`, and its result. -/
structure Written where
  blocks : List (List UInt8)
  returned : ℕ

/-- What the file holds once every block is stored. -/
def Written.bytes (w : Written) : List UInt8 := w.blocks.flatten

/-! ## Poles: short frames -/

namespace Poles

def frame : CapturedFrame where
  data i := UInt8.ofNat i
  len := 3
  tsps := { tvSec := 5, tvPsec := 999999999999 }
  nonempty := by decide
  fits := by decide

theorem frame_timed : frame.Timed :=
  ⟨by decide, by decide, by decide, by decide⟩

/-- A frame of one byte, the frame, and one of two bytes a picosecond later. -/
def frames : List CapturedFrame :=
  [{ frame with len := 1, tsps := ⟨5, 0⟩, nonempty := by decide, fits := by decide }, frame,
    { frame with len := 2, tsps := ⟨6, 0⟩, nonempty := by decide, fits := by decide }]

theorem frames_timed : ∀ f ∈ frames, f.Timed :=
  List.forall_mem_cons.2 ⟨⟨by decide, by decide, by decide, by decide⟩,
    List.forall_mem_cons.2 ⟨frame_timed,
      List.forall_mem_singleton.2 ⟨by decide, by decide, by decide, by decide⟩⟩⟩

end Poles

end ExanicCapture.Save
