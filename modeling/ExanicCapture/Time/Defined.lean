/-
# Time.Defined -- where the `-H` path is defined

`exanic_acquire_handle` turns timestamping off by setting the tick rate to 0;
`exanic_expand_timestamp` looks for that, `exanic_cycles_to_timespecps` divides by it.
And a tick count below zero leaves a remainder below zero, which the conversion
multiplies as if it were a large positive number.

`hwTimestamp_dated_iff` says exactly when a frame gets a time whose picoseconds are
below 10^12: `frameTime` is the tick count nearest to the card's present time that
matches the frame's timestamp, and `Dated` is the condition on it.  For a count below
zero the wrapped products can still come out in range; `psec_inexact` has the bounds.
-/
import ExanicCapture.Time.Exact

namespace ExanicCapture.Time

set_option autoImplicit false

open Save Theory

/-! ## The condition -/

/-- The time the clock registers tell, as a signed 64-bit count. -/
def clockReading (loads : Loads) : ℤ :=
  let hi := if loads.hi1 = loads.hi2 ∨ 2147483648 ≤ loads.lo.toNat then loads.hi1 else loads.hi2
  ((hi.toNat * 4294967296 + loads.lo.toNat : ℕ) : ℤ).bmod 18446744073709551616

/-- The card's present time, from its registers or from the info page. -/
def presentTime (caps : UInt32) (infoPage : Bool) (loads : Loads) : ℤ :=
  if caps &&& exanicCapHwTimeHi ≠ 0 ∧ (infoPage = false ∨ loads.hwTimeTested = 0) then
    clockReading loads
  else (loads.hwTime.toNat : ℤ).bmod 18446744073709551616

/-- The signed count nearest to the present time with the frame's low 32 bits. -/
def frameTime (caps : UInt32) (infoPage : Bool) (loads : Loads) (timestamp : UInt32) : ℤ :=
  let present := presentTime caps infoPage loads
  (present + (timestamp.toNat - present).bmod 4294967296).bmod 18446744073709551616

/-- The tick count is not negative, or it is a whole number of seconds, or the
products of its negative remainder wrap into the range. -/
def Dated (hz : ℕ) (ticks : ℤ) : Prop :=
  0 ≤ ticks ∨ hz ∣ ticks.natAbs ∨
    ¬ hz ∣ 1000000000000 ∧
      ticks.natAbs % hz * 1000000000000 ≤ 18446744073709551616 ∧
      18446744073709551616 < (ticks.natAbs % hz + hz) * 1000000000000

/-! ## Negative remainders -/

section Negative

variable {hz k : ℕ}

/-- A product of a word `k` below the top, and something more, read as signed. -/
theorem bmod_below_top {q x : ℕ} (below : k ≤ 18446744073709551616) (few : k * q < 1000000000001)
    (bound : x ≤ 6148914691236517205) :
    (((18446744073709551616 - k) * q + x : ℕ) : ℤ).bmod 18446744073709551616 =
      x - (k * q : ℕ) := by
  have wrapped : (18446744073709551616 - k) * q + k * q = 18446744073709551616 * q := by
    rw [← Nat.add_mul, Nat.sub_add_cancel below]
  generalize k * q = y at few wrapped ⊢
  have shifted : (((18446744073709551616 - k) * q + x : ℕ) : ℤ) =
      (x - (y : ℕ)) + (18446744073709551616 : ℕ) * (q : ℤ) := by omega
  rw [shifted, Int.add_mul_bmod_self_left]
  exact Int.bmod_eq_of_le_mul_two (by omega) (by omega)

/-- A rate that divides a second: the picoseconds come out negative. -/
theorem psec_divisor (word : hz < 4294967296) (below : k < hz) (divides : 1000000000000 % hz = 0) :
    (((18446744073709551616 - k) * (1000000000000 / hz) +
        (18446744073709551616 - k) * (1000000000000 % hz) % 18446744073709551616 / hz : ℕ) :
          ℤ).bmod 18446744073709551616 = -(k * (1000000000000 / hz) : ℕ) := by
  have few : k * (1000000000000 / hz) ≤ 1000000000000 :=
    (Nat.mul_le_mul_right _ below.le).trans (Nat.mul_div_le _ _)
  rw [divides, Nat.mul_zero, Nat.zero_mod, Nat.zero_div,
    bmod_below_top (by omega) (Nat.lt_succ_of_le few) (by decide)]
  exact Int.zero_sub _

/-- Any other rate: a quotient of what is left of the words. -/
theorem psec_inexact (word : hz < 4294967296) (positive : 0 < k) (below : k < hz)
    (inexact : 1000000000000 % hz ≠ 0) :
    (((18446744073709551616 - k) * (1000000000000 / hz) +
        (18446744073709551616 - k) * (1000000000000 % hz) % 18446744073709551616 / hz : ℕ) :
          ℤ).bmod 18446744073709551616 =
      (18446744073709551616 - (k * 1000000000000 : ℕ)) / (hz : ℤ) := by
  have three : 3 ≤ hz := by
    by_contra few
    have : hz = 1 ∨ hz = 2 := by omega
    rcases this with rfl | rfl <;> exact inexact (by decide)
  have parts := Nat.div_add_mod 1000000000000 hz
  have few : k * (1000000000000 / hz) ≤ 1000000000000 :=
    (Nat.mul_le_mul_right _ below.le).trans (Nat.mul_div_le _ _)
  have r_lt : 1000000000000 % hz < hz := Nat.mod_lt _ (by omega)
  generalize 1000000000000 / hz = q at parts few ⊢
  generalize 1000000000000 % hz = r at parts r_lt inexact ⊢
  have product : 0 < k * r := Nat.mul_pos positive (Nat.pos_of_ne_zero inexact)
  have product_lt : k * r < 18446744073709551616 := by
    calc k * r < 4294967296 * 4294967296 :=
          Nat.mul_lt_mul'' (below.trans word) (r_lt.trans word)
      _ = 18446744073709551616 := by norm_num
  have wrapped : (18446744073709551616 - k) * r + k * r = 18446744073709551616 * r := by
    rw [← Nat.add_mul, Nat.sub_add_cancel (by omega)]
  have rest : (18446744073709551616 - k) * r % 18446744073709551616 =
      18446744073709551616 - k * r := by omega
  have bound : (18446744073709551616 - k * r) / hz ≤ 6148914691236517205 :=
    (Nat.div_le_div_left three (by decide)).trans
      ((Nat.div_le_div_right (Nat.sub_le _ _)).trans (by norm_num))
  have whole : k * 1000000000000 = k * r + k * q * hz := by
    rw [← parts]
    ring
  rw [rest, bmod_below_top (by omega) (Nat.lt_succ_of_le few) bound, Int.natCast_ediv, whole,
    Int.sub_eq_add_neg, ← Int.add_mul_ediv_right _ _ (by omega)]
  congr 1
  push_cast [product_lt.le]
  ring
end Negative

/-! ## The conversion -/

/-- The picoseconds are those of a time. -/
def InSecond (tsps : ExanicTimespecps) : Prop :=
  0 ≤ tsps.tvPsec ∧ tsps.tvPsec < 10 ^ 12

section Conversion

variable {exanic : Exanic} {cycles : Int64}

/-- The remainder of a count below zero, as a word. -/
theorem frac_negative {n hz : ℕ} (word : hz < 4294967296) (positive : 0 < hz) :
    ((-(n : ℤ)).tmod hz % 18446744073709551616).toNat =
      if n % hz = 0 then 0 else 18446744073709551616 - n % hz := by
  have part := Nat.mod_lt n positive
  rw [Int.neg_tmod, Int.tmod_eq_emod_of_nonneg (Int.natCast_nonneg n), ← Int.natCast_mod]
  split <;> omega

theorem cycles_negative_iff (rate : exanic.tickHz ≠ 0) (negative : cycles.toInt < 0) :
    (∃ tsps, exanicCyclesToTimespecps exanic cycles = .ok tsps ∧ InSecond tsps) ↔
      Dated exanic.tickHz.toNat cycles.toInt := by
  have word := exanic.tickHz.toNat_lt
  have positive : 0 < exanic.tickHz.toNat :=
    Nat.pos_of_ne_zero fun zero => rate (UInt32.toNat_inj.1 zero)
  obtain ⟨n, count⟩ : ∃ n : ℕ, cycles.toInt = -(n : ℤ) := ⟨cycles.toInt.natAbs, by omega⟩
  have converted := exanicCyclesToTimespecps_eq rate cycles
  rw [count] at negative converted ⊢
  rw [converted, frac_negative word positive]
  simp only [Except.ok.injEq, exists_eq_left', InSecond, Dated, Int.natAbs_neg, Int.natAbs_natCast]
  generalize exanic.tickHz.toNat = hz at word positive ⊢
  have below := Nat.mod_lt n positive
  have notNonneg : ¬ 0 ≤ -(n : ℤ) := by omega
  rw [Nat.dvd_iff_mod_eq_zero (n := n), Nat.dvd_iff_mod_eq_zero (n := 1000000000000)]
  generalize n % hz = k at below ⊢
  by_cases zero : k = 0
  · simp [zero]
  · have nonzero : 0 < k := Nat.pos_of_ne_zero zero
    simp only [zero, if_false, notNonneg, false_or]
    by_cases divides : 1000000000000 % hz = 0
    · have quotient : 0 < 1000000000000 / hz := Nat.div_pos (by omega) positive
      have product := Nat.mul_pos nonzero quotient
      rw [psec_divisor word below divides]
      simp only [divides, not_true_eq_false, false_and, iff_false]
      omega
    · rw [psec_inexact word nonzero below divides, Int.ediv_nonneg_iff_of_pos (by omega),
        Int.ediv_lt_iff_lt_mul (by omega)]
      simp only [divides, not_false_eq_true, true_and]
      have whole : (k + hz) * 1000000000000 = k * 1000000000000 + hz * 1000000000000 :=
        Nat.add_mul _ _ _
      rw [whole]
      constructor
      · rintro ⟨low, high⟩
        constructor
        · omega
        · omega
      · rintro ⟨low, high⟩
        constructor
        · omega
        · omega

/-- **The picoseconds are in range exactly for a dated count.** -/
theorem cycles_dated_iff (rate : exanic.tickHz ≠ 0) :
    (∃ tsps, exanicCyclesToTimespecps exanic cycles = .ok tsps ∧ InSecond tsps) ↔
      Dated exanic.tickHz.toNat cycles.toInt := by
  rcases lt_or_ge cycles.toInt 0 with negative | nonneg
  · exact cycles_negative_iff rate negative
  · have positive : 0 < exanic.tickHz.toNat :=
      Nat.pos_of_ne_zero fun zero => rate (UInt32.toNat_inj.1 zero)
    have range := cycles.toInt_lt
    have psec := Rescale.parts_lt positive (p := 1000000000000) (by decide) cycles.toInt.toNat
    have converted : exanicCyclesToTimespecps exanic cycles =
        .ok (exactTime exanic.tickHz.toNat cycles.toInt.toNat) :=
      cycles_exact rate (by omega) (by omega)
    refine iff_of_true ⟨_, converted, Int.natCast_nonneg _, ?_⟩ (Or.inl nonneg)
    show ((cycles.toInt.toNat % exanic.tickHz.toNat * 1000000000000 / exanic.tickHz.toNat : ℕ) :
      ℤ) < 10 ^ 12
    exact_mod_cast psec

end Conversion

/-! ## The whole path -/

/-- A frame gets a time: nothing is divided by zero, no missing page is read, and
the picoseconds are in range. -/
def FrameTimed (caps clkHz : UInt32) (infoPage : Bool) (loads : Loads) (timestamp : UInt32) :
    Prop :=
  ∃ tsps, hwTimestamp (exanicAcquireHandle caps clkHz infoPage) loads timestamp = .ok tsps ∧
    InSecond tsps

section Path

variable {caps clkHz : UInt32} {infoPage : Bool} {loads : Loads} {timestamp : UInt32}

theorem ofInt_bmod (n : ℤ) : Int64.ofInt (n.bmod 18446744073709551616) = Int64.ofInt n := by
  apply Int64.toInt_inj.1
  rw [Int64.toInt_ofInt, Int64.toInt_ofInt]
  exact Int.bmod_bmod

theorem exanicReadHwTime64_eq (loads : Loads) :
    exanicReadHwTime64 loads.hi1 loads.lo loads.hi2 = Int64.ofInt (clockReading loads) := by
  have low : loads.lo < 0x80000000 ↔ loads.lo.toNat < 2147483648 := Iff.rfl
  unfold exanicReadHwTime64 clockReading
  rw [ofInt_bmod, Int64.ofInt_eq_ofNat]
  by_cases same : loads.hi1 = loads.hi2
  · rw [if_pos same, joined_words, if_pos (Or.inl same)]
  · rw [if_neg same]
    by_cases after : loads.lo < 0x80000000
    · have after' := low.1 after
      rw [if_pos after, joined_words, if_neg (by simp [same]; omega)]
    · have before : 2147483648 ≤ loads.lo.toNat := Nat.le_of_not_lt fun lt => after (low.2 lt)
      rw [if_neg after, joined_words, if_pos (Or.inr before)]

/-- A device that can tell the time tells `presentTime`. -/
theorem timeTick_eq {exanic : Exanic}
    (able : exanic.infoPage = true ∨ exanic.caps &&& exanicCapHwTimeHi ≠ 0) :
    timeTick exanic loads = .ok (Int64.ofInt (presentTime exanic.caps exanic.infoPage loads)) := by
  unfold timeTick presentTime
  split
  · rw [exanicReadHwTime64_eq]
  · rename_i notRegisters
    have mapped : exanic.infoPage = true := by
      rcases able with mapped | high
      · exact mapped
      · by_contra missing
        exact notRegisters ⟨high, Or.inl (Bool.eq_false_iff.2 missing)⟩
    rw [if_pos mapped, ← toInt64_toInt, Int64.ofInt_toInt]

theorem expand_frameTime {exanic : Exanic} (rate : exanic.tickHz ≠ 0)
    (able : exanic.infoPage = true ∨ exanic.caps &&& exanicCapHwTimeHi ≠ 0) :
    exanicExpandTimestamp exanic loads timestamp =
      .ok (Int64.ofInt (frameTime exanic.caps exanic.infoPage loads timestamp)) := by
  rw [exanicExpandTimestamp, if_neg rate, timeTick_eq able]
  show Except.ok (Int64.ofInt _ + _) = _
  rw [expand_ofInt, frameTime, ofInt_bmod]

theorem frameTime_toInt :
    (Int64.ofInt (frameTime caps infoPage loads timestamp)).toInt =
      frameTime caps infoPage loads timestamp := by
  rw [frameTime, Int64.toInt_ofInt]
  exact Int.bmod_bmod

/-- **Exactly when the `-H` path is defined**: the card has a clock rate, its time can
be read, and the frame's time is one the conversion can handle. -/
theorem hwTimestamp_dated_iff :
    FrameTimed caps clkHz infoPage loads timestamp ↔
      clkHz ≠ 0 ∧ (infoPage = true ∨ caps &&& exanicCapHwTimeHi ≠ 0) ∧
        Dated clkHz.toNat (frameTime caps infoPage loads timestamp) := by
  unfold FrameTimed
  by_cases able : infoPage = true ∨ caps &&& exanicCapHwTimeHi ≠ 0
  · have handle : exanicAcquireHandle caps clkHz infoPage = ⟨clkHz, caps, infoPage⟩ := by
      have enabled : ¬ (infoPage = false ∧ caps &&& exanicCapHwTimeHi = 0) := by
        rintro ⟨missing, low⟩
        rcases able with mapped | high
        · rw [missing] at mapped
          exact Bool.false_ne_true mapped
        · exact high low
      simp only [exanicAcquireHandle, if_neg enabled]
    rw [handle]
    by_cases rate : clkHz = 0
    · simp [rate, hwTimestamp, exanicExpandTimestamp, exanicCyclesToTimespecps, Except.map, bind,
        Except.bind]
    · rw [hwTimestamp, expand_frameTime rate able]
      show (∃ tsps, exanicCyclesToTimespecps _ (Int64.ofInt _).toUInt64.toInt64 = .ok tsps ∧ _) ↔ _
      rw [Int64.toInt64_toUInt64, cycles_dated_iff rate, frameTime_toInt]
      simp [rate, able]
  · have disabled : infoPage = false ∧ caps &&& exanicCapHwTimeHi = 0 := by
      simpa using able
    simp [disabled, exanicAcquireHandle, hwTimestamp, exanicExpandTimestamp,
      exanicCyclesToTimespecps, Except.map, bind, Except.bind]

end Path

/-! ## Poles: a card whose driver has no info page -/

namespace Poles

def noLoads : Loads := { hwTimeTested := 0, hwTime := 0, hi1 := 0, lo := 0, hi2 := 0 }

/-- Without the info page and the high time register timestamping is disabled, and
the first frame divides by zero. -/
theorem disabled_divides_by_zero :
    hwTimestamp (exanicAcquireHandle 0 250000000 false) noLoads 1 = .error .divideByZero ∧
      ¬ ∀ caps clkHz infoPage loads timestamp,
        FrameTimed caps clkHz infoPage loads timestamp := by
  have faults : hwTimestamp (exanicAcquireHandle 0 250000000 false) noLoads 1 =
      .error .divideByZero := by
    decide
  refine ⟨faults, ?_⟩
  intro always
  obtain ⟨tsps, timed, -⟩ := always 0 250000000 false noLoads 1
  rw [faults] at timed
  cases timed

/-- The clock of a card that was never set: a frame from just before zero. -/
example : exanicCyclesToTimespecps hiCard (-1) = .ok { tvSec := 0, tvPsec := -4000 } := by
  decide

end Poles

end ExanicCapture.Time
