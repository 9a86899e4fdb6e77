/-
# Time.Timestamp -- hardware timestamps (`time.c`)

What the `-H` branch of the capture loop does with the 32-bit timestamp of a frame:
`exanic_expand_timestamp` finds the 64-bit tick count nearest to the card's present
time, and `exanic_cycles_to_timespecps` turns ticks into seconds and picoseconds.
The part of `exanic_acquire_handle` that decides about the tick rate is here too.

The fixed-width types are the code's own, `exanic_cycles_t` is `Int64`, and signed
arithmetic wraps.  A division by zero and a load from an info page that is not
mapped are faults.
-/
import ExanicCapture.Save.Frame
import ExanicCapture.Theory.Rescale

namespace ExanicCapture.Time

set_option autoImplicit false

open Save Theory

/-- `PICOS_PER_SEC`. -/
def picosPerSec : UInt64 := 1000000000000

/-- `EXANIC_CAP_HW_TIME_HI`. -/
def exanicCapHwTimeHi : UInt32 := 0x00000100

/-- What C leaves undefined. -/
inductive Fault where
  | nullInfoPage
  | divideByZero
deriving DecidableEq

/-- The fields of `exanic_t` that tell the time: the tick rate, the capabilities,
and whether there is an info page. -/
structure Exanic where
  tickHz : UInt32
  caps : UInt32
  infoPage : Bool
deriving DecidableEq

/-- `exanic_acquire_handle`: the registers `REG_EXANIC_CAPS` and
`REG_EXANIC_CLK_HZ`, and whether the info page could be mapped. -/
def exanicAcquireHandle (caps clkHz : UInt32) (infoPage : Bool) : Exanic :=
  -- without the page, a card that needs it for the time has timestamping disabled
  let tickHz := if infoPage = false ∧ caps &&& exanicCapHwTimeHi = 0 then 0 else clkHz
  { tickHz, caps, infoPage }

/-- What the volatile loads of one conversion find: `hw_time` of the info page when
it is tested and when it is used, and the three loads of the clock registers. -/
structure Loads where
  hwTimeTested : UInt64
  hwTime : UInt64
  hi1 : UInt32
  lo : UInt32
  hi2 : UInt32

/-- `exanic_read_hw_time_64`. -/
def exanicReadHwTime64 (hi1 lo hi2 : UInt32) : Int64 :=
  if hi1 = hi2 then hi1.toUInt64.toInt64 <<< 32 ||| lo.toUInt64.toInt64
  else if lo < 0x80000000 then hi2.toUInt64.toInt64 <<< 32 ||| lo.toUInt64.toInt64
  else hi1.toUInt64.toInt64 <<< 32 ||| lo.toUInt64.toInt64

/-- `time_tick`, the approximate current hardware time. -/
def timeTick (exanic : Exanic) (loads : Loads) : Except Fault Int64 :=
  if exanic.caps &&& exanicCapHwTimeHi ≠ 0 ∧
      (exanic.infoPage = false ∨ loads.hwTimeTested = 0) then
    .ok (exanicReadHwTime64 loads.hi1 loads.lo loads.hi2)
  else if exanic.infoPage then .ok loads.hwTime.toInt64
  else .error .nullInfoPage

/-- `exanic_expand_timestamp`. -/
def exanicExpandTimestamp (exanic : Exanic) (loads : Loads) (timestamp : UInt32) :
    Except Fault Int64 :=
  if exanic.tickHz = 0 then .ok 0
  else do
    let timeTick ← timeTick exanic loads
    -- round to the nearest tick value that matches the timestamp
    return timeTick + (timestamp.toUInt64.toInt64 - timeTick).toInt32.toInt64

/-- `exanic_cycles_to_timespecps`. -/
def exanicCyclesToTimespecps (exanic : Exanic) (cycles : Int64) :
    Except Fault ExanicTimespecps :=
  if exanic.tickHz = 0 then .error .divideByZero
  else
    let tickHz := exanic.tickHz.toUInt64
    let fracCycles := (cycles % tickHz.toInt64).toUInt64
    .ok
      { tvSec := (cycles / tickHz.toInt64).toInt
        tvPsec :=
          (fracCycles * (picosPerSec / tickHz) +
            fracCycles * (picosPerSec % tickHz) / tickHz).toInt64.toInt }

/-- The timestamp of a frame with `-H`, as `main` takes it. -/
def hwTimestamp (exanic : Exanic) (loads : Loads) (timestamp : UInt32) :
    Except Fault ExanicTimespecps := do
  let timestamp64 ← (exanicExpandTimestamp exanic loads timestamp).map Int64.toUInt64
  exanicCyclesToTimespecps exanic timestamp64.toInt64

/-! ## The fixed-width operations as integers -/

theorem toInt64_toInt (n : UInt64) :
    n.toInt64.toInt = (n.toNat : ℤ).bmod 18446744073709551616 :=
  BitVec.toInt_eq_toNat_bmod n.toBitVec

theorem bmod_of_nonneg {n : ℤ} (nonneg : 0 ≤ n) (small : n < 9223372036854775808) :
    n.bmod 18446744073709551616 = n :=
  Int.bmod_eq_of_le_mul_two (by omega) (by omega)

theorem toInt_widened (n : UInt32) : n.toUInt64.toInt64.toInt = n.toNat := by
  have := n.toNat_lt
  rw [toInt64_toInt, UInt32.toNat_toUInt64, bmod_of_nonneg (by omega) (by omega)]

theorem widened_eq (n : UInt32) : n.toUInt64.toInt64 = Int64.ofInt n.toNat := by
  have := n.toNat_lt
  apply Int64.toInt_inj.1
  rw [toInt_widened, Int64.toInt_ofInt]
  exact (bmod_of_nonneg (by omega) (by omega)).symm

theorem toInt64_ofInt (n : ℤ) :
    (Int32.ofInt n).toInt64 = Int64.ofInt (n.bmod 4294967296) := by
  apply Int64.toInt_inj.1
  rw [Int32.toInt_toInt64, Int32.toInt_ofInt, Int64.toInt_ofInt]
  show n.bmod 4294967296 = (n.bmod 4294967296).bmod 18446744073709551616
  have low := Int.le_bmod (x := n) (m := 4294967296) (by decide)
  have high := Int.bmod_lt (x := n) (m := 4294967296) (by decide)
  exact (Int.bmod_eq_of_le_mul_two (by omega) (by omega)).symm

/-- The nearest tick value, without the words. -/
theorem expand_ofInt (estimate : ℤ) (timestamp : UInt32) :
    Int64.ofInt estimate +
        (timestamp.toUInt64.toInt64 - Int64.ofInt estimate).toInt32.toInt64 =
      Int64.ofInt (estimate + (timestamp.toNat - estimate : ℤ).bmod 4294967296) := by
  rw [widened_eq, ← Int64.ofInt_sub, Int64.toInt32_ofInt, toInt64_ofInt, ← Int64.ofInt_add]

theorem toUInt64_toNat (n : Int64) : (n.toUInt64.toNat : ℤ) = n.toInt % 18446744073709551616 := by
  have word := n.toUInt64.toNat_lt
  have signed : n.toInt = (n.toUInt64.toNat : ℤ).bmod 18446744073709551616 :=
    toInt64_toInt n.toUInt64
  have same := Int.bmod_emod (x := n.toUInt64.toNat) (m := 18446744073709551616)
  rw [signed]
  omega

/-- A sum may be reduced before it is read as signed. -/
theorem bmod_mod (a b : ℕ) :
    (((a % 18446744073709551616 + b) % 18446744073709551616 : ℕ) : ℤ).bmod 18446744073709551616 =
      ((a + b : ℕ) : ℤ).bmod 18446744073709551616 := by
  rw [Nat.mod_add_mod, Int.natCast_mod]
  exact Int.emod_bmod _ _

/-- Seconds and picoseconds of any tick count, without the words. -/
theorem exanicCyclesToTimespecps_eq {exanic : Exanic} (rate : exanic.tickHz ≠ 0)
    (cycles : Int64) :
    let hz := exanic.tickHz.toNat
    let frac := (cycles.toInt.tmod hz % 18446744073709551616).toNat
    exanicCyclesToTimespecps exanic cycles =
      .ok
        { tvSec := cycles.toInt.tdiv hz
          tvPsec :=
            ((frac * (1000000000000 / hz) +
              frac * (1000000000000 % hz) % 18446744073709551616 / hz : ℕ) : ℤ).bmod
                18446744073709551616 } := by
  intro hz frac
  have rate_lt := exanic.tickHz.toNat_lt
  have divisor : exanic.tickHz.toUInt64.toInt64.toInt = hz := toInt_widened _
  have notMinusOne : exanic.tickHz.toUInt64.toInt64 ≠ -1 := by
    intro same
    rw [same] at divisor
    have : (-1 : Int64).toInt = -1 := by decide
    omega
  have rest : (cycles % exanic.tickHz.toUInt64.toInt64).toUInt64.toNat = frac := by
    have := toUInt64_toNat (cycles % exanic.tickHz.toUInt64.toInt64)
    rw [Int64.toInt_mod, divisor] at this
    omega
  have picos : picosPerSec.toNat = 1000000000000 := by decide
  unfold exanicCyclesToTimespecps
  rw [if_neg rate]
  simp only [Int64.toInt_div_of_ne_right _ _ notMinusOne, divisor, toInt64_toInt, UInt64.toNat_add,
    UInt64.toNat_mul, UInt64.toNat_div, UInt64.toNat_mod, rest, picos, UInt32.toNat_toUInt64,
    Nat.reducePow, bmod_mod]
  rfl

end ExanicCapture.Time
