/-
# Time.Convert -- ticks in nanoseconds and picoseconds (`time.c`)

The conversions that the capture loop does not use: `exanic_cycles_to_ns`,
`exanic_cycles_to_ps` with its overflow flag, and the deprecated pair
`exanic_timestamp_to_counter` and `exanic_counter_to_timestamp`.

A time that does not fit wraps.  The flag of `exanic_cycles_to_ps` is compared with the
tick rate, not with the picoseconds of a second, so it is set only in the last second, a
partial one, that an `int64_t` counts in ticks (`cyclesToPs_picoseconds`).  The counter of a timestamp turns back into the timestamp
exactly if the time was a whole number of nanoseconds (`counter_back`).
-/
import ExanicCapture.Time.Exact

namespace ExanicCapture.Time

set_option autoImplicit false

open Save Theory

/-! ## The code -/

/-- `NANOS_PER_SEC`. -/
def nanosPerSec : UInt64 := 1000000000

/-- `INT64_MAX`. -/
def int64Max : Int64 := 9223372036854775807

/-- `struct timespec`. -/
structure Timespec where
  tvSec : Int64
  tvNsec : Int64

section Code

variable (exanic : Exanic)

/-- `exanic_cycles_to_timespec`. -/
def exanicCyclesToTimespec (cycles : Int64) : Except Fault Timespec :=
  if exanic.tickHz = 0 then .error .divideByZero
  else
    let tickHz := exanic.tickHz.toUInt64
    .ok
      { tvSec := cycles / tickHz.toInt64
        tvNsec := ((cycles % tickHz.toInt64).toUInt64 * nanosPerSec / tickHz).toInt64 }

/-- `ts.tv_sec * NANOS_PER_SEC + ts.tv_nsec`. -/
def Timespec.nanos (ts : Timespec) : UInt64 := ts.tvSec.toUInt64 * nanosPerSec + ts.tvNsec.toUInt64

/-- `exanic_cycles_to_ns`. -/
def exanicCyclesToNs (cycles : Int64) : Except Fault Int64 := do
  let ts ← exanicCyclesToTimespec exanic cycles
  return ts.nanos.toInt64

/-- `exanic_cycles_to_ps`, and `*overflow`. -/
def exanicCyclesToPs (cycles : Int64) : Except Fault (Int64 × Bool) := do
  let tsps ← exanicCyclesToTimespecps exanic cycles
  let overflow := decide (tsps.tvSec ≥ (int64Max / exanic.tickHz.toUInt64.toInt64).toInt)
  return ((toUint64 tsps.tvSec * picosPerSec + toUint64 tsps.tvPsec).toInt64, overflow)

/-- `exanic_timestamp_to_counter`. -/
def exanicTimestampToCounter (loads : Loads) (timestamp : UInt32) : Except Fault UInt64 := do
  let timestampExpanded ← (exanicExpandTimestamp exanic loads timestamp).map Int64.toUInt64
  let ts ← exanicCyclesToTimespec exanic timestampExpanded.toInt64
  return ts.nanos

/-- `exanic_counter_to_timestamp`. -/
def exanicCounterToTimestamp (counter : UInt64) : UInt32 :=
  (counter / nanosPerSec * exanic.tickHz.toUInt64 +
    counter % nanosPerSec * exanic.tickHz.toUInt64 / nanosPerSec).toUInt32

end Code

/-! ## Without the words -/

section Exact

variable {exanic : Exanic} {ticks : ℕ}

theorem nanosPerSec_eq : nanosPerSec = UInt64.ofNat 1000000000 := rfl

theorem tickHz_widened (exanic : Exanic) :
    exanic.tickHz.toUInt64 = UInt64.ofNat exanic.tickHz.toNat := by
  have word := exanic.tickHz.toNat_lt
  refine UInt64.toNat_inj.1 ?_
  rw [UInt32.toNat_toUInt64, UInt64.toNat_ofNat', Nat.mod_eq_of_lt (by omega)]

theorem toUint64_natCast (n : ℕ) : toUint64 n = UInt64.ofNat n := by
  rw [toUint64, BitVec.ofInt_natCast]
  rfl

theorem tickHz_pos (rate : exanic.tickHz ≠ 0) : 0 < exanic.tickHz.toNat :=
  Nat.pos_of_ne_zero fun zero => rate (UInt32.toNat_inj.1 zero)

theorem cyclesToTimespec_exact (rate : exanic.tickHz ≠ 0) (range : ticks < 2 ^ 63) :
    exanicCyclesToTimespec exanic (Int64.ofNat ticks) =
      .ok ⟨Int64.ofNat (ticks / exanic.tickHz.toNat),
        Int64.ofNat (ticks % exanic.tickHz.toNat * 1000000000 / exanic.tickHz.toNat)⟩ := by
  have word := exanic.tickHz.toNat_lt
  have part := Nat.mod_lt ticks (tickHz_pos rate)
  rw [exanicCyclesToTimespec, if_neg rate]
  dsimp only
  rw [tickHz_widened, UInt64.toInt64_ofNat', ← Int64.ofNat_div range (by omega),
    ← Int64.ofNat_mod range (by omega), Int64.toUInt64_ofNat', nanosPerSec_eq, ← UInt64.ofNat_mul,
    ← UInt64.ofNat_div (by omega) (by omega), UInt64.toInt64_ofNat']

theorem nanos_exact (rate : exanic.tickHz ≠ 0) (ticks : ℕ) :
    (⟨Int64.ofNat (ticks / exanic.tickHz.toNat),
        Int64.ofNat (ticks % exanic.tickHz.toNat * 1000000000 / exanic.tickHz.toNat)⟩ :
      Timespec).nanos = UInt64.ofNat (ticks * 1000000000 / exanic.tickHz.toNat) := by
  rw [Timespec.nanos, Int64.toUInt64_ofNat', Int64.toUInt64_ofNat', nanosPerSec_eq,
    ← UInt64.ofNat_mul, ← UInt64.ofNat_add, Rescale.seconds_add_parts (tickHz_pos rate)]

/-- The nanoseconds, rounded down once, as far as they fit. -/
theorem cyclesToNs_exact (rate : exanic.tickHz ≠ 0) (range : ticks < 2 ^ 63) :
    exanicCyclesToNs exanic (Int64.ofNat ticks) =
      .ok (Int64.ofNat (ticks * 1000000000 / exanic.tickHz.toNat)) := by
  rw [exanicCyclesToNs, cyclesToTimespec_exact rate range]
  show Except.ok (Timespec.nanos _).toInt64 = _
  rw [nanos_exact rate, UInt64.toInt64_ofNat']

/-- The picoseconds, rounded down once, as far as they fit, and the flag. -/
theorem cyclesToPs_exact (rate : exanic.tickHz ≠ 0) (range : ticks < 2 ^ 63) :
    exanicCyclesToPs exanic (Int64.ofNat ticks) =
      .ok (Int64.ofNat (ticks * 1000000000000 / exanic.tickHz.toNat),
        decide (9223372036854775807 / exanic.tickHz.toNat ≤ ticks / exanic.tickHz.toNat)) := by
  have word := exanic.tickHz.toNat_lt
  have picos : picosPerSec = UInt64.ofNat 1000000000000 := rfl
  have top : int64Max = Int64.ofNat 9223372036854775807 := rfl
  have limit : (int64Max / exanic.tickHz.toUInt64.toInt64).toInt =
      (9223372036854775807 / exanic.tickHz.toNat : ℕ) := by
    have small := Nat.div_le_self 9223372036854775807 exanic.tickHz.toNat
    rw [tickHz_widened, UInt64.toInt64_ofNat', top, ← Int64.ofNat_div (by omega) (by omega),
      Int64.toInt_ofNat_of_lt (by omega)]
  have converted := cycles_exact rate range (Int64.toInt_ofNat_of_lt range)
  rw [exanicCyclesToPs, converted]
  show Except.ok (_, _) = _
  rw [limit, exactTime, toUint64_natCast, toUint64_natCast, picos, ← UInt64.ofNat_mul,
    ← UInt64.ofNat_add, Rescale.seconds_add_parts (tickHz_pos rate), UInt64.toInt64_ofNat']
  simp only [ge_iff_le, Nat.cast_le]

theorem ofNat_toInt_eq_iff (n : ℕ) : (Int64.ofNat n).toInt = n ↔ n < 2 ^ 63 := by
  constructor
  · intro exact
    have small := (Int64.ofNat n).toInt_lt
    omega
  · exact Int64.toInt_ofNat_of_lt

/-- The ticks of the last, partial second before the count of ticks overflows. -/
theorem flagged_iff {hz : ℕ} (positive : 0 < hz) (ticks : ℕ) :
    9223372036854775807 / hz ≤ ticks / hz ↔ hz * (9223372036854775807 / hz) ≤ ticks := by
  rw [Nat.le_div_iff_mul_le positive, Nat.mul_comm]

/-- A tick that is flagged is too late for picoseconds. -/
theorem flagged_overflows {hz : ℕ} (positive : 0 < hz) (word : hz < 2 ^ 32)
    (flagged : 9223372036854775807 / hz ≤ ticks / hz) : 2 ^ 63 ≤ ticks * 1000000000000 / hz := by
  have seconds : 2 ^ 31 ≤ ticks / hz := by
    refine le_trans ?_ flagged
    rw [Nat.le_div_iff_mul_le positive]
    calc 2 ^ 31 * hz ≤ 2 ^ 31 * (2 ^ 32 - 1) := Nat.mul_le_mul_left _ (by omega)
      _ ≤ 9223372036854775807 := by norm_num
  rw [← Rescale.seconds_add_parts positive]
  refine le_trans ?_ (Nat.le_add_right _ _)
  calc 2 ^ 63 ≤ 2 ^ 31 * 1000000000000 := by norm_num
    _ ≤ ticks / hz * 1000000000000 := Nat.mul_le_mul_right _ seconds

/-- What `exanic_cycles_to_ps` returns for a count of ticks: the exact picoseconds exactly if
they fit, and a flag that is never set without need, but is set only in the last, partial
second of ticks. -/
structure Picoseconds (hz ticks : ℕ) (ps : Int64) (overflow : Bool) : Prop where
  exact_iff : ps.toInt = (ticks * 1000000000000 / hz : ℕ) ↔ ticks * 1000000000000 / hz < 2 ^ 63
  needed : overflow = true → ps.toInt ≠ (ticks * 1000000000000 / hz : ℕ)
  missed_iff : overflow = false ∧ ps.toInt ≠ (ticks * 1000000000000 / hz : ℕ) ↔
    2 ^ 63 ≤ ticks * 1000000000000 / hz ∧ ticks < hz * ((2 ^ 63 - 1) / hz)

/-- **The flag misses every overflow but those in the last, partial second**, which has up
to `tick_hz` ticks. -/
theorem cyclesToPs_picoseconds (rate : exanic.tickHz ≠ 0) (range : ticks < 2 ^ 63) :
    ∃ ps overflow, exanicCyclesToPs exanic (Int64.ofNat ticks) = .ok (ps, overflow) ∧
      Picoseconds exanic.tickHz.toNat ticks ps overflow := by
  have positive := tickHz_pos rate
  refine ⟨_, _, cyclesToPs_exact rate range, ofNat_toInt_eq_iff _, ?_, ?_⟩
  · intro flagged
    rw [ne_eq, ofNat_toInt_eq_iff, not_lt]
    exact flagged_overflows positive exanic.tickHz.toNat_lt (of_decide_eq_true flagged)
  · rw [ne_eq, ofNat_toInt_eq_iff, not_lt, decide_eq_false_iff_not, flagged_iff positive, not_le]
    exact and_comm

/-! ## The counter and back -/

theorem counterToTimestamp_eq (exanic : Exanic) (n : ℕ) (range : n < 2 ^ 64) :
    exanicCounterToTimestamp exanic (UInt64.ofNat n) =
      UInt32.ofNat (n * exanic.tickHz.toNat / 1000000000) := by
  have word := exanic.tickHz.toNat_lt
  have product : n % 1000000000 * exanic.tickHz.toNat < 2 ^ 64 :=
    calc n % 1000000000 * exanic.tickHz.toNat
        ≤ 1000000000 * 2 ^ 32 := Nat.mul_le_mul (Nat.mod_lt _ (by norm_num)).le word.le
      _ < 2 ^ 64 := by norm_num
  rw [exanicCounterToTimestamp, tickHz_widened, nanosPerSec_eq,
    ← UInt64.ofNat_div range (by norm_num),
    ← UInt64.ofNat_mod range (by norm_num), ← UInt64.ofNat_mul, ← UInt64.ofNat_mul,
    ← UInt64.ofNat_div product (by norm_num), ← UInt64.ofNat_add, UInt64.toUInt32_ofNat',
    Rescale.seconds_add_parts (by norm_num)]

/-- The counter of a timestamp, and the timestamp of that counter. -/
structure CounterBack (exanic : Exanic) (ticks : ℕ) (counter : UInt64) : Prop where
  nanos : counter.toNat = ticks * 1000000000 / exanic.tickHz.toNat
  back : exanicCounterToTimestamp exanic counter =
    UInt32.ofNat (ticks - (ticks * 1000000000 % exanic.tickHz.toNat + 999999999) / 1000000000)
  same_iff : exanicCounterToTimestamp exanic counter = UInt32.ofNat ticks ↔
    exanic.tickHz.toNat ∣ ticks * 1000000000

/-- **A timestamp survives the way to a counter and back exactly if it was at a whole
nanosecond**, and is otherwise a few ticks early. -/
theorem counter_back {loads : Loads} (estimated : Estimated exanic loads ticks)
    (fits : ticks * 1000000000 / exanic.tickHz.toNat < 2 ^ 64) :
    ∃ counter, exanicTimestampToCounter exanic loads (UInt32.ofNat ticks) = .ok counter ∧
      CounterBack exanic ticks counter := by
  have rate := estimated.rate
  have word := exanic.tickHz.toNat_lt
  have left := Nat.mod_lt (ticks * 1000000000) (tickHz_pos rate)
  have inside : ticks * 1000000000 % exanic.tickHz.toNat ≤ ticks * 1000000000 := Nat.mod_le _ _
  have back := counterToTimestamp_eq exanic _ fits
  rw [Rescale.parts_back (by norm_num)] at back
  refine ⟨UInt64.ofNat (ticks * 1000000000 / exanic.tickHz.toNat), ?_, ?_, back, ?_⟩
  · rw [exanicTimestampToCounter, expand_exact estimated]
    show (exanicCyclesToTimespec exanic (Int64.ofNat ticks) >>= fun ts => pure ts.nanos) = _
    rw [cyclesToTimespec_exact rate estimated.range]
    exact congrArg Except.ok (nanos_exact rate ticks)
  · rw [UInt64.toNat_ofNat', Nat.mod_eq_of_lt fits]
  · rw [back, Nat.dvd_iff_mod_eq_zero, ← UInt32.toNat_inj, UInt32.toNat_ofNat', UInt32.toNat_ofNat']
    omega

end Exact

/-! ## Poles: a card of 161 MHz -/

namespace Poles

/-- A card that tells its time in the info page. -/
def fastCard : Exanic := { tickHz := 161132812, caps := 0, infoPage := true }

/-- A year of picoseconds does not fit, and is not flagged. -/
theorem cyclesToPs_picoseconds_year :
    ∃ ps overflow, exanicCyclesToPs fastCard (Int64.ofNat 5000000000000000) = .ok (ps, overflow) ∧
      Picoseconds fastCard.tickHz.toNat 5000000000000000 ps overflow :=
  cyclesToPs_picoseconds (by decide) (by norm_num)

theorem counter_back_tick :
    ∃ counter, exanicTimestampToCounter fastCard (pageLoads 1) (UInt32.ofNat 1) = .ok counter ∧
      CounterBack fastCard 1 counter :=
  counter_back ⟨by decide, by norm_num, 1, rfl, by norm_num, by norm_num⟩ (by decide)

end Poles

end ExanicCapture.Time
