/-
# Time.Exact -- hardware timestamps end to end

A frame was received at tick `ticks` of the card's clock; all the code gets of it is
the low 32 bits.  `Estimated` says what it takes to get the rest back: a rate, a
count below 2^63, and an estimate of the present time less than 2^31 ticks away.

* `exanicReadHwTime64_low`: the three register loads give such an estimate, the very
  time of the low load, across a carry between the words.
* `hwTimestamp_exact`: the `-H` path gives `exactTime`, seconds and picoseconds
  rounded down once, and no product on the way overflows (`WordsFit`).
* `pcapStamp_exact`, `erfStamp_exact`: what the records say of it.

`hardwareTime_survives` is all of it.
-/
import ExanicCapture.Save.Erf
import ExanicCapture.Save.Pcap
import ExanicCapture.Time.Timestamp

namespace ExanicCapture.Time

set_option autoImplicit false

open Save Theory

/-! ## The clock registers -/

/-- The register that holds the low word of a clock. -/
def loWord (clock : ℕ) : UInt32 := UInt32.ofNat clock

/-- The register that holds the high word of a clock. -/
def hiWord (clock : ℕ) : UInt32 := UInt32.ofNat (clock / 4294967296)

theorem joined_words (hi lo : UInt32) :
    hi.toUInt64.toInt64 <<< 32 ||| lo.toUInt64.toInt64 =
      Int64.ofNat (hi.toNat * 4294967296 + lo.toNat) := by
  have high := hi.toNat_lt
  have low := lo.toNat_lt
  have joined : (hi.toUInt64 <<< 32 ||| lo.toUInt64).toNat =
      hi.toNat * 4294967296 + lo.toNat := by
    rw [UInt64.toNat_or, UInt64.toNat_shiftLeft, UInt32.toNat_toUInt64, UInt32.toNat_toUInt64]
    show hi.toNat <<< 32 % 2 ^ 64 ||| lo.toNat = _
    have small : hi.toNat <<< 32 < 2 ^ 64 := by
      rw [Nat.shiftLeft_eq]
      omega
    rw [Nat.mod_eq_of_lt small, ← Nat.shiftLeft_add_eq_or_of_lt low, Nat.shiftLeft_eq]
  have same : hi.toUInt64.toInt64 <<< 32 ||| lo.toUInt64.toInt64 =
      (hi.toUInt64 <<< 32 ||| lo.toUInt64).toInt64 := rfl
  rw [same, ← UInt64.ofNat_toNat (x := hi.toUInt64 <<< 32 ||| lo.toUInt64), joined,
    UInt64.toInt64_ofNat']

/-- Words of one clock value, joined again. -/
theorem joined_clock {clock other : ℕ}
    (same : other / 4294967296 = clock / 4294967296) :
    (hiWord other).toUInt64.toInt64 <<< 32 ||| (loWord clock).toUInt64.toInt64 =
      Int64.ofNat clock := by
  have high : (hiWord other).toNat = clock / 4294967296 % 4294967296 := by
    rw [hiWord, UInt32.toNat_ofNat', same]
  have low : (loWord clock).toNat = clock % 4294967296 := by
    rw [loWord, UInt32.toNat_ofNat']
  have word : clock / 4294967296 % 4294967296 * 4294967296 + clock % 4294967296 =
      clock % 18446744073709551616 := by omega
  rw [joined_words, high, low, word]
  apply Int64.toInt_inj.1
  rw [Int64.toInt_ofNat', Int64.toInt_ofNat', Int.natCast_mod]
  exact Int.emod_bmod _ _

/-- **The time that the three loads make up is the time of the low load.** -/
theorem exanicReadHwTime64_low {c1 c2 c3 : ℕ} (first : c1 ≤ c2) (second : c2 ≤ c3)
    (close : c3 < c1 + 2147483648) :
    exanicReadHwTime64 (hiWord c1) (loWord c2) (hiWord c3) = Int64.ofNat c2 := by
  have high : ∀ c, (hiWord c).toNat = c / 4294967296 % 4294967296 := fun c => by
    rw [hiWord, UInt32.toNat_ofNat']
  have low : (loWord c2).toNat = c2 % 4294967296 := by
    rw [loWord, UInt32.toNat_ofNat']
  unfold exanicReadHwTime64
  split
  · rename_i same
    have same := congrArg UInt32.toNat same
    rw [high, high] at same
    exact joined_clock (by omega)
  · rename_i differ
    -- a carry between the loads of the high word
    have carried : c3 / 4294967296 = c1 / 4294967296 + 1 := by
      have : c1 / 4294967296 ≠ c3 / 4294967296 := by
        intro same
        apply differ
        rw [hiWord, hiWord, same]
      omega
    split
    · rename_i after
      have after : (loWord c2).toNat < 2147483648 := after
      exact joined_clock (by omega)
    · rename_i before
      have before : ¬ (loWord c2).toNat < 2147483648 := before
      exact joined_clock (by omega)

/-! ## The conversion -/

/-- A tick count in seconds and picoseconds, each rounded down. -/
def exactTime (hz ticks : ℕ) : ExanicTimespecps :=
  { tvSec := (ticks / hz : ℕ), tvPsec := (ticks % hz * 1000000000000 / hz : ℕ) }

/-- The card's time is known well enough to place a frame received at `ticks`. -/
structure Estimated (exanic : Exanic) (loads : Loads) (ticks : ℕ) : Prop where
  rate : exanic.tickHz ≠ 0
  range : ticks < 2 ^ 63
  near : ∃ estimate : ℤ, timeTick exanic loads = .ok (Int64.ofInt estimate) ∧
    -2 ^ 31 ≤ ticks - estimate ∧ ticks - estimate < 2 ^ 31

/-- The products and their sum are below 2^64. -/
structure WordsFit (hz ticks : ℕ) : Prop where
  whole : ticks % hz * (1000000000000 / hz) < 2 ^ 64
  rest : ticks % hz * (1000000000000 % hz) < 2 ^ 64
  sum : ticks % hz * (1000000000000 / hz) + ticks % hz * (1000000000000 % hz) / hz < 2 ^ 64

section Exact

variable {exanic : Exanic} {loads : Loads} {ticks : ℕ}

theorem Estimated.positive (estimated : Estimated exanic loads ticks) : 0 < exanic.tickHz.toNat :=
  Nat.pos_of_ne_zero fun zero => estimated.rate (UInt32.toNat_inj.1 zero)

theorem wordsFit {hz : ℕ} (positive : 0 < hz) (word : hz < 2 ^ 32) (ticks : ℕ) :
    WordsFit hz ticks := by
  have part : ticks % hz < hz := Nat.mod_lt _ positive
  have split := Rescale.mul_div_split positive (ticks % hz) 1000000000000
  have psec := Rescale.parts_lt positive (p := 1000000000000) (by decide) ticks
  have picos : 1000000000000 % hz < hz := Nat.mod_lt _ positive
  have sum : ticks % hz * (1000000000000 / hz) + ticks % hz * (1000000000000 % hz) / hz < 2 ^ 64 :=
    split.trans_lt (psec.trans (by norm_num))
  refine ⟨(Nat.le_add_right _ _).trans_lt sum, ?_, sum⟩
  calc ticks % hz * (1000000000000 % hz)
      < hz * hz := Nat.mul_lt_mul'' part picos
    _ ≤ 2 ^ 32 * 2 ^ 32 := Nat.mul_le_mul word.le word.le
    _ = 2 ^ 64 := by norm_num

theorem expand_exact (estimated : Estimated exanic loads ticks) :
    exanicExpandTimestamp exanic loads (UInt32.ofNat ticks) = .ok (Int64.ofNat ticks) := by
  obtain ⟨estimate, tick, low, high⟩ := estimated.near
  have word : ((UInt32.ofNat ticks).toNat : ℤ) = (ticks : ℤ) % 4294967296 := by
    rw [UInt32.toNat_ofNat']
    omega
  have nearest := Rescale.near_bmod (m := 4294967296) (t := ticks) (e := estimate)
    (by omega) (by omega)
  rw [exanicExpandTimestamp, if_neg estimated.rate, tick]
  show Except.ok (Int64.ofInt estimate + _) = _
  rw [expand_ofInt, word, ← Int64.ofInt_eq_ofNat]
  exact congrArg (fun t => Except.ok (Int64.ofInt t)) nearest

theorem cycles_exact {cycles : Int64} (rate : exanic.tickHz ≠ 0) (range : ticks < 2 ^ 63)
    (count : cycles.toInt = ticks) :
    exanicCyclesToTimespecps exanic cycles = .ok (exactTime exanic.tickHz.toNat ticks) := by
  have positive : 0 < exanic.tickHz.toNat :=
    Nat.pos_of_ne_zero fun zero => rate (UInt32.toNat_inj.1 zero)
  have fits := wordsFit positive exanic.tickHz.toNat_lt ticks
  have part := Nat.mod_le ticks exanic.tickHz.toNat
  have rest : ticks % exanic.tickHz.toNat * (1000000000000 % exanic.tickHz.toNat) <
      18446744073709551616 := fits.rest
  have psec := Rescale.parts_lt positive (p := 1000000000000) (by decide) ticks
  have frac : ((ticks : ℤ).tmod exanic.tickHz.toNat % 18446744073709551616).toNat =
      ticks % exanic.tickHz.toNat := by
    rw [Int.tmod_eq_emod_of_nonneg (by omega), ← Int.natCast_mod]
    omega
  rw [exanicCyclesToTimespecps_eq rate, count, frac, Nat.mod_eq_of_lt rest,
    Rescale.mul_div_split positive,
    bmod_of_nonneg (Int.natCast_nonneg _) (by exact_mod_cast psec.trans (by norm_num)),
    Int.tdiv_eq_ediv_of_nonneg (by omega), ← Int.natCast_ediv, exactTime]

/-- **The `-H` path gives the exact time, rounded down once.** -/
theorem hwTimestamp_exact (estimated : Estimated exanic loads ticks) :
    hwTimestamp exanic loads (UInt32.ofNat ticks) =
      .ok (exactTime exanic.tickHz.toNat ticks) := by
  have range := estimated.range
  rw [hwTimestamp, expand_exact estimated]
  exact cycles_exact estimated.rate range (Int64.toInt_ofNat_of_lt range)

end Exact

/-! ## The records -/

/-- The two time fields of a pcap record, as a reader finds them. -/
def pcapStamp (order : ByteOrder) (record : List UInt8) : Option (ℕ × ℕ) := do
  let (tsSec, rest) ← readUInt order 4 record
  let (tsUsec, _) ← readUInt order 4 rest
  return (tsSec, tsUsec)

/-- The fixed-point timestamp of an ERF record. -/
def erfStamp (record : List UInt8) : Option ℕ := do
  let (timestamp, _) ← readUInt .little 8 record
  return timestamp

/-- How many units of the sub-second field make a second. -/
def pcapUnits (nsecPcap : Bool) : ℕ := if nsecPcap then 1000000000 else 1000000

section Records

variable {hz : ℕ}

theorem pcapUnits_pos (nsecPcap : Bool) : 0 < pcapUnits nsecPcap := by
  cases nsecPcap <;> decide

theorem toUint32_natCast (n : ℕ) : (toUint32 n).toNat = n % 2 ^ 32 := by
  rw [toUint32_toNat]
  omega

/-- The sub-second field is the time in its own units, rounded down once. -/
theorem tsUsec_exact (positive : 0 < hz) (ticks : ℕ) (nsecPcap : Bool) :
    (toUint32 (if nsecPcap then (exactTime hz ticks).tvPsec.tdiv 1000
      else ((exactTime hz ticks).tvPsec.tdiv 1000).tdiv 1000)).toNat =
      ticks % hz * pcapUnits nsecPcap / hz := by
  have small := Rescale.parts_lt positive (pcapUnits_pos nsecPcap) ticks
  have whole : ∀ n k : ℕ, (n : ℤ).tdiv k = (n / k : ℕ) := fun n k => by
    rw [Int.tdiv_eq_ediv_of_nonneg (by omega), Int.natCast_ediv]
  cases nsecPcap with
  | true =>
      have nanos := Rescale.parts_coarser (h := hz) (ticks % hz) 1000000000
        (k := 1000) (by decide)
      have field : (exactTime hz ticks).tvPsec.tdiv 1000 =
          (ticks % hz * 1000000000 / hz : ℕ) := by
        rw [← nanos]
        exact whole _ 1000
      rw [if_pos rfl, field, toUint32_natCast]
      exact Nat.mod_eq_of_lt (small.trans (by decide))
  | false =>
      have micros := Rescale.parts_coarser (h := hz) (ticks % hz) 1000000
        (k := 1000000) (by decide)
      have field : ((exactTime hz ticks).tvPsec.tdiv 1000).tdiv 1000 =
          (ticks % hz * 1000000 / hz : ℕ) := by
        rw [← micros]
        show (((ticks % hz * 1000000000000 / hz : ℕ) : ℤ).tdiv (1000 : ℕ)).tdiv (1000 : ℕ) = _
        rw [whole, whole, Nat.div_div_eq_div_mul]
      rw [if_neg Bool.false_ne_true, field, toUint32_natCast]
      exact Nat.mod_eq_of_lt (small.trans (by decide))

theorem pcapStamp_exact (positive : 0 < hz) (ticks : ℕ) (host : ByteOrder) (data : ℕ → UInt8)
    (len : ℤ) (nsecPcap : Bool) (snaplen : Int32) :
    pcapStamp host (writePcapPacket host data len (exactTime hz ticks) nsecPcap snaplen).bytes =
      some (ticks / hz % 2 ^ 32, ticks % hz * pcapUnits nsecPcap / hz) := by
  have sec : (toUint32 (exactTime hz ticks).tvSec).toNat = ticks / hz % 2 ^ 32 :=
    toUint32_natCast _
  have usec := tsUsec_exact positive ticks nsecPcap
  simp only [writePcapPacket, Written.bytes, List.flatten_cons, PcapPkthdr.bytes,
    List.append_assoc, pcapStamp, Option.bind_eq_bind, readUInt_uint32, Option.bind_some]
  rw [sec, usec]
  rfl

theorem erfStamp_exact (ticks : ℕ) (host : ByteOrder) (data : ℕ → UInt8)
    (len : ℤ) (port snaplen : Int32) :
    erfStamp (writeErfPacket host data len (exactTime hz ticks) port snaplen).bytes =
      some ((erfbinfrac (exactTime hz ticks).tvPsec).toNat + 2 ^ 32 * (ticks / hz % 2 ^ 32)) := by
  have sec : (toUint32 (exactTime hz ticks).tvSec).toNat = ticks / hz % 2 ^ 32 :=
    toUint32_natCast _
  simp only [writeErfPacket, Written.bytes, List.flatten_cons, ErfHeader.bytes,
    List.append_assoc, erfStamp, Option.bind_eq_bind, bytes_htole32, readUInt_halves,
    Option.bind_some]
  rw [sec]
  rfl

/-- One pair of seconds and parts is not after another. -/
def NotAfter (p q : ℕ × ℕ) : Prop :=
  p.1 < q.1 ∨ p.1 = q.1 ∧ p.2 ≤ q.2

theorem erfbinfrac_exact (positive : 0 < hz) (ticks : ℕ) :
    (erfbinfrac (exactTime hz ticks).tvPsec).toNat =
      ticks % hz * 1000000000000 / hz * 2 ^ 20 / 244140625 := by
  have psec := Rescale.parts_lt positive (p := 1000000000000) (by decide) ticks
  have frac := erfbinfrac_toNat (Int.natCast_nonneg (ticks % hz * 1000000000000 / hz))
    (by exact_mod_cast psec)
  exact_mod_cast frac

end Records

/-! ## All of it -/

/-- What the `-H` path and the pcap record make of a frame received at `ticks`. -/
structure Survives (exanic : Exanic) (loads : Loads) (ticks : ℕ) : Prop where
  exact : hwTimestamp exanic loads (UInt32.ofNat ticks) =
    .ok (exactTime exanic.tickHz.toNat ticks)
  words : WordsFit exanic.tickHz.toNat ticks
  signed : ∀ estimate : ℤ, -2 ^ 31 ≤ ticks - estimate → ticks - estimate < 2 ^ 31 →
    estimate < 2 ^ 63 →
      -2 ^ 63 ≤ (ticks : ℤ) % 2 ^ 32 - estimate ∧ (ticks : ℤ) % 2 ^ 32 - estimate < 2 ^ 63
  psec : 0 ≤ (exactTime exanic.tickHz.toNat ticks).tvPsec ∧
    (exactTime exanic.tickHz.toNat ticks).tvPsec < 10 ^ 12
  pcap : ∀ host data len nsecPcap snaplen, ∃ tsSec tsUsec,
    pcapStamp host (writePcapPacket host data len (exactTime exanic.tickHz.toNat ticks)
      nsecPcap snaplen).bytes = some (tsSec, tsUsec) ∧
    tsUsec < pcapUnits nsecPcap ∧
    (ticks / exanic.tickHz.toNat < 2 ^ 32 →
      tsSec * pcapUnits nsecPcap + tsUsec = ticks * pcapUnits nsecPcap / exanic.tickHz.toNat)

theorem Estimated.survives {exanic : Exanic} {loads : Loads} {ticks : ℕ}
    (estimated : Estimated exanic loads ticks) : Survives exanic loads ticks where
  exact := hwTimestamp_exact estimated
  words := wordsFit estimated.positive exanic.tickHz.toNat_lt ticks
  signed := by
    intro estimate low high range
    omega
  psec := by
    have psec := Rescale.parts_lt estimated.positive (p := 1000000000000) (by decide) ticks
    refine ⟨Int.natCast_nonneg _, ?_⟩
    show ((ticks % exanic.tickHz.toNat * 1000000000000 / exanic.tickHz.toNat : ℕ) : ℤ) < 10 ^ 12
    exact_mod_cast psec
  pcap := by
    intro host data len nsecPcap snaplen
    refine ⟨_, _, pcapStamp_exact estimated.positive ticks host data len nsecPcap snaplen,
      Rescale.parts_lt estimated.positive (pcapUnits_pos nsecPcap) ticks, fun epoch => ?_⟩
    rw [Nat.mod_eq_of_lt epoch, Rescale.seconds_add_parts estimated.positive]

/-- Two frames' records carry their times in order: the seconds in full, of which
the field holds the low 32 bits, and so the fields themselves as long as these
suffice. -/
structure InOrder (hz ticks ticks' : ℕ) : Prop where
  pcap : ∀ host data data' len len' nsecPcap snaplen, ∃ tsUsec tsUsec',
    pcapStamp host (writePcapPacket host data len (exactTime hz ticks) nsecPcap snaplen).bytes =
      some (ticks / hz % 2 ^ 32, tsUsec) ∧
    pcapStamp host (writePcapPacket host data' len' (exactTime hz ticks') nsecPcap snaplen).bytes =
      some (ticks' / hz % 2 ^ 32, tsUsec') ∧
    NotAfter (ticks / hz, tsUsec) (ticks' / hz, tsUsec') ∧
    (ticks' / hz < 2 ^ 32 →
      NotAfter (ticks / hz % 2 ^ 32, tsUsec) (ticks' / hz % 2 ^ 32, tsUsec'))
  erf : ∀ host data data' len len' port snaplen, ∃ tsFrac tsFrac',
    erfStamp (writeErfPacket host data len (exactTime hz ticks) port snaplen).bytes =
      some (tsFrac + 2 ^ 32 * (ticks / hz % 2 ^ 32)) ∧
    erfStamp (writeErfPacket host data' len' (exactTime hz ticks') port snaplen).bytes =
      some (tsFrac' + 2 ^ 32 * (ticks' / hz % 2 ^ 32)) ∧
    NotAfter (ticks / hz, tsFrac) (ticks' / hz, tsFrac') ∧
    (ticks' / hz < 2 ^ 32 →
      tsFrac + 2 ^ 32 * (ticks / hz % 2 ^ 32) ≤ tsFrac' + 2 ^ 32 * (ticks' / hz % 2 ^ 32))

theorem inOrder {hz ticks ticks' : ℕ} (positive : 0 < hz) (order : ticks ≤ ticks') :
    InOrder hz ticks ticks' where
  pcap := by
    intro host data data' len len' nsecPcap snaplen
    have lex := Rescale.parts_mono (h := hz) order (pcapUnits nsecPcap)
    refine ⟨_, _, pcapStamp_exact positive ticks host data len nsecPcap snaplen,
      pcapStamp_exact positive ticks' host data' len' nsecPcap snaplen, lex, fun epoch => ?_⟩
    have earlier : ticks / hz < 2 ^ 32 := (Nat.div_le_div_right order).trans_lt epoch
    rw [Nat.mod_eq_of_lt epoch, Nat.mod_eq_of_lt earlier]
    exact lex
  erf := by
    intro host data data' len len' port snaplen
    have frac_lt := (erfbinfrac (exactTime hz ticks).tvPsec).toNat_lt
    have lex : NotAfter (ticks / hz, (erfbinfrac (exactTime hz ticks).tvPsec).toNat)
        (ticks' / hz, (erfbinfrac (exactTime hz ticks').tvPsec).toNat) := by
      rcases Rescale.parts_mono (h := hz) order 1000000000000 with earlier | ⟨same, parts⟩
      · exact Or.inl earlier
      · refine Or.inr ⟨same, ?_⟩
        show (erfbinfrac _).toNat ≤ (erfbinfrac _).toNat
        rw [erfbinfrac_exact positive, erfbinfrac_exact positive]
        exact Nat.div_le_div_right (Nat.mul_le_mul_right _ parts)
    refine ⟨_, _, erfStamp_exact ticks host data len port snaplen,
      erfStamp_exact ticks' host data' len' port snaplen, lex, fun epoch => ?_⟩
    have earlier : ticks / hz < 2 ^ 32 := (Nat.div_le_div_right order).trans_lt epoch
    rw [Nat.mod_eq_of_lt epoch, Nat.mod_eq_of_lt earlier]
    rcases lex with before | ⟨same, parts⟩
    · have before : ticks / hz < ticks' / hz := before
      omega
    · have same : ticks / hz = ticks' / hz := same
      have parts : (erfbinfrac (exactTime hz ticks).tvPsec).toNat ≤
        (erfbinfrac (exactTime hz ticks').tvPsec).toNat := parts
      omega

/-- **Hardware timestamps survive end to end**, and the register loads are an
estimate without error. -/
theorem hardwareTime_survives (exanic : Exanic) :
    (∀ loads ticks, Estimated exanic loads ticks → Survives exanic loads ticks) ∧
      (∀ loads loads' ticks ticks', Estimated exanic loads ticks →
        Estimated exanic loads' ticks' → ticks ≤ ticks' →
          InOrder exanic.tickHz.toNat ticks ticks') ∧
      ∀ c1 c2 c3 : ℕ, c1 ≤ c2 → c2 ≤ c3 → c3 < c1 + 2 ^ 31 →
        exanicReadHwTime64 (hiWord c1) (loWord c2) (hiWord c3) = Int64.ofNat c2 ∧
          (c2 < 2 ^ 63 →
            (exanicReadHwTime64 (hiWord c1) (loWord c2) (hiWord c3)).toInt = c2) := by
  refine ⟨fun _ _ => Estimated.survives, fun _ _ _ _ estimated _ => inOrder estimated.positive,
    fun c1 c2 c3 first second close => ?_⟩
  have read := exanicReadHwTime64_low first second close
  refine ⟨read, ?_⟩
  intro range
  rw [read]
  exact Int64.toInt_ofNat_of_lt range

/-! ## Poles: a card without an info page, just before a carry -/

namespace Poles

/-- 250 MHz, with the high time register. -/
def hiCard : Exanic := { tickHz := 250000000, caps := exanicCapHwTimeHi, infoPage := false }

/-- The clock goes from `2^32 - 1` to `2^32` between the low load and the second
high one. -/
def carryLoads : Loads :=
  { hwTimeTested := 0, hwTime := 0, hi1 := hiWord 4294967290, lo := loWord 4294967295
    hi2 := hiWord 4294967296 }

theorem hardwareTime_survives_carry :
    hwTimestamp hiCard carryLoads (UInt32.ofNat 4294967293) =
      .ok { tvSec := 17, tvPsec := 179869172000 } := by
  obtain ⟨survives, -, registers⟩ := hardwareTime_survives hiCard
  have tick : timeTick hiCard carryLoads = .ok (Int64.ofInt 4294967295) := by
    rw [timeTick, if_pos (by decide)]
    exact congrArg Except.ok
      (registers 4294967290 4294967295 4294967296 (by decide) (by decide) (by decide)).1
  rw [(survives carryLoads 4294967293
    ⟨by decide, by decide, 4294967295, tick, by decide, by decide⟩).exact]
  decide

/-- One tick a second, told by the info page. -/
def slowCard : Exanic := { tickHz := 1, caps := 0, infoPage := true }

def pageLoads (hwTime : UInt64) : Loads :=
  { hwTimeTested := hwTime, hwTime, hi1 := 0, lo := 0, hi2 := 0 }

/-- A second later the 32-bit field starts again at 0, and the record is dated before the
one in front of it. -/
theorem recorded_seconds_wrap :
    (hwTimestamp slowCard (pageLoads 4294967295) (UInt32.ofNat 4294967295) =
        .ok { tvSec := 4294967295, tvPsec := 0 } ∧
      hwTimestamp slowCard (pageLoads 4294967296) (UInt32.ofNat 4294967296) =
        .ok { tvSec := 4294967296, tvPsec := 0 }) ∧
    ¬ ∀ exanic loads loads' ticks ticks', Estimated exanic loads ticks →
      Estimated exanic loads' ticks' → ticks ≤ ticks' →
        ∀ host data len nsecPcap snaplen stamp stamp',
          pcapStamp host (writePcapPacket host data len (exactTime exanic.tickHz.toNat ticks)
            nsecPcap snaplen).bytes = some stamp →
          pcapStamp host (writePcapPacket host data len (exactTime exanic.tickHz.toNat ticks')
            nsecPcap snaplen).bytes = some stamp' →
          NotAfter stamp stamp' := by
  refine ⟨⟨by decide, by decide⟩, ?_⟩
  intro always
  have positive : 0 < slowCard.tickHz.toNat := by decide
  have estimated : Estimated slowCard (pageLoads 4294967295) 4294967295 :=
    ⟨by decide, by decide, 4294967295, by decide, by decide, by decide⟩
  have estimated' : Estimated slowCard (pageLoads 4294967296) 4294967296 :=
    ⟨by decide, by decide, 4294967296, by decide, by decide, by decide⟩
  have order := always slowCard _ _ _ _ estimated estimated' (by decide) .little (fun _ => 0) 1
    false 4 _ _ (pcapStamp_exact positive 4294967295 .little _ 1 false 4)
    (pcapStamp_exact positive 4294967296 .little _ 1 false 4)
  rcases order with earlier | ⟨same, -⟩
  · exact absurd earlier (by decide)
  · exact absurd same (by decide)

end Poles

end ExanicCapture.Time
