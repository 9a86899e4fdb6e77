/-
# Tx.Checksum -- the internet checksum of a payload

`csum` of `checksum.h`.  `csumPart` is the plain loop over 16-bit words that any
machine can run; `csumPartAmd64` is what an amd64 runs instead: blocks of 128 bytes,
added as 64-bit words into four sums with the processor's carry, and the rest of the
buffer in pieces of 64 bytes down to one.  Both are folded to 16 bits by `csumPack`.

The two partial sums differ as numbers.  They are alike in ones' complement
arithmetic modulo `2^16 - 1` (`csumPartAmd64_alike`), and that is all `csumPack`
keeps, so both paths give the same checksum (`csum_agrees`).
-/
import Mathlib.Data.Nat.Bitwise
import Mathlib.Data.UInt
import ExanicCapture.Theory.OnesComplement

namespace ExanicCapture.Tx

set_option autoImplicit false

open Theory

/-! ## The code -/

/-- `(sum >> 32) + (uint32_t)sum`. -/
def fold32 (sum : UInt64) : UInt64 := (sum >>> 32) + sum.toUInt32.toUInt64

/-- `(sum >> 16) + (uint16_t)sum`. -/
def fold16 (sum : UInt64) : UInt64 := (sum >>> 16) + sum.toUInt16.toUInt64

/-- `csum_pack`. -/
def csumPack (sum : UInt64) : UInt16 := (fold16 (fold16 (fold32 (fold32 sum)))).toUInt16

/-- A load of a little-endian machine. -/
def load (bs : List UInt8) : UInt64 := .ofNat (ByteOrder.littleValue bs)

/-- `csum_part`, as it is where neither amd64 nor powerpc64 is defined. -/
def csumPart : List UInt8 → UInt64 → UInt64
  | [], sum => sum
  | [a], sum => sum + load [a]
  | a :: b :: rest, sum => csumPart rest (sum + load [a, b])

/-! ### `checksum_amd64.h` -/

/-- `adc`; `add` is `adc` with the carry clear. -/
def adc (acc word : UInt64) (carry : Bool) : UInt64 × Bool :=
  (acc + word + carry.toUInt64, decide (2 ^ 64 ≤ acc.toNat + word.toNat + carry.toNat))

/-- `add`, then `adc` for the other words. -/
def adcs (words : List UInt64) (acc : UInt64) (carry : Bool) : UInt64 × Bool :=
  words.foldl (fun s word => adc s.1 word s.2) (acc, carry)

/-- `add`, `adc`, ..., and `adc $0`. -/
def addWithCarry (acc : UInt64) (words : List UInt64) : UInt64 :=
  (adc (adcs words acc false).1 0 (adcs words acc false).2).1

/-- `n` loads of `width` bytes each. -/
def loads (width n : ℕ) (bs : List UInt8) : List UInt64 :=
  (List.range n).map fun i => load ((bs.drop (width * i)).take width)

/-- The four running sums. -/
structure Sums where
  sum : UInt64
  sum1 : UInt64
  sum2 : UInt64
  sum3 : UInt64

/-- One block of 128 bytes. -/
def Sums.block (s : Sums) (bs : List UInt8) : Sums where
  sum := addWithCarry s.sum (loads 8 4 bs)
  sum1 := addWithCarry s.sum1 (loads 8 4 (bs.drop 32))
  sum2 := addWithCarry s.sum2 (loads 8 4 (bs.drop 64))
  sum3 := addWithCarry s.sum3 (loads 8 4 (bs.drop 96))

/-- "128 byte blocks". -/
def Sums.blocks : ℕ → List UInt8 → Sums → Sums
  | 0, _, s => s
  | n + 1, bs, s => Sums.blocks n (bs.drop 128) (s.block bs)

/-- "Combine the four 64 bit sums into a single 33 bit sum". -/
def Sums.combine (s : Sums) : UInt64 :=
  let sum1 := addWithCarry s.sum1 [s.sum3]
  let sum := addWithCarry s.sum [s.sum2]
  let sum := addWithCarry sum [sum1]
  fold32 sum

/-- `if (len & size)`: the next `size` bytes, loaded `width` at a time. -/
def piece (len size width : ℕ) (s : UInt64 × List UInt8) : UInt64 × List UInt8 :=
  if len &&& size ≠ 0 then (s.1 + (loads width (size / width) s.2).sum, s.2.drop size) else s

/-- What is less than a block. -/
def pieces (len : ℕ) (s : UInt64 × List UInt8) : UInt64 × List UInt8 :=
  let s := piece len 64 4 s
  let s := piece len 32 4 s
  let s := piece len 16 4 s
  let s := piece len 8 4 s
  let s := piece len 4 4 s
  let s := piece len 2 2 s
  piece len 1 1 s

/-- `csum_part` on amd64. -/
def csumPartAmd64 (buf : List UInt8) (sum : UInt64) : UInt64 :=
  let n := buf.length / 128
  let sum := if 128 ≤ buf.length then (Sums.blocks n buf ⟨sum, 0, 0, 0⟩).combine else sum
  (pieces (buf.length % 128) (sum, buf.drop (128 * n))).1

/-- `csum` on amd64. -/
def csum (buf : List UInt8) (sum : UInt64) : UInt16 := csumPack (csumPartAmd64 buf sum)

/-! ## Folding -/

theorem fold32_toNat (sum : UInt64) :
    (fold32 sum).toNat = sum.toNat / 2 ^ 32 + sum.toNat % 2 ^ 32 := by
  have := sum.toNat_lt
  rw [fold32, UInt64.toNat_add, UInt64.toNat_shiftRight, UInt32.toNat_toUInt64,
    UInt64.toNat_toUInt32]
  simp only [UInt64.reduceToNat, Nat.reduceMod, Nat.shiftRight_eq_div_pow]
  omega

theorem fold16_toNat (sum : UInt64) :
    (fold16 sum).toNat = sum.toNat / 2 ^ 16 + sum.toNat % 2 ^ 16 := by
  have := sum.toNat_lt
  rw [fold16, UInt64.toNat_add, UInt64.toNat_shiftRight, UInt16.toNat_toUInt64,
    UInt64.toNat_toUInt16]
  simp only [UInt64.reduceToNat, Nat.reduceMod, Nat.shiftRight_eq_div_pow]
  omega

theorem fold32_alike (sum : UInt64) : Alike 65535 (fold32 sum).toNat sum.toNat := by
  rw [fold32_toNat]
  exact (alike_fold (2 ^ 32 - 1) sum.toNat).of_dvd (m := 65535) (by decide)

theorem fold16_alike (sum : UInt64) : Alike 65535 (fold16 sum).toNat sum.toNat := by
  rw [fold16_toNat]
  exact alike_fold 65535 sum.toNat

/-- Four folds leave 16 bits. -/
theorem folded_lt (sum : UInt64) : (fold16 (fold16 (fold32 (fold32 sum)))).toNat < 2 ^ 16 := by
  have := sum.toNat_lt
  have first := fold32_toNat sum
  have second := fold32_toNat (fold32 sum)
  have third := fold16_toNat (fold32 (fold32 sum))
  rw [fold16_toNat]
  omega

/-- The checksum stands for the same number as the sum. -/
theorem csumPack_alike (sum : UInt64) : Alike 65535 (csumPack sum).toNat sum.toNat := by
  rw [csumPack, UInt64.toNat_toUInt16, Nat.mod_eq_of_lt (folded_lt sum)]
  exact (fold16_alike _).trans ((fold16_alike _).trans ((fold32_alike _).trans (fold32_alike sum)))

/-- Alike sums have the same checksum. -/
theorem csumPack_congr {a b : UInt64} (alike : Alike 65535 a.toNat b.toNat) :
    csumPack a = csumPack b := by
  apply UInt16.toNat_inj.1
  have packed := (csumPack_alike a).trans (alike.trans (csumPack_alike b).symm)
  exact packed.eq_of_le (by have := (csumPack a).toNat_lt; omega)
    (by have := (csumPack b).toNat_lt; omega)

/-! ## The plain loop -/

theorem load_toNat {bs : List UInt8} (short : bs.length ≤ 8) :
    (load bs).toNat = ByteOrder.littleValue bs := by
  have bound : ByteOrder.littleValue bs < 256 ^ bs.length := ByteOrder.little.value_lt rfl
  have := Nat.pow_le_pow_right (show 0 < 256 by decide) short
  rw [load, UInt64.toNat_ofNat']
  exact Nat.mod_eq_of_lt (lt_of_lt_of_le bound this)

/-- The plain loop adds the words up. -/
theorem csumPart_toNat (buf : List UInt8) (sum : UInt64)
    (room : sum.toNat + 65535 * buf.length < 2 ^ 64) :
    (csumPart buf sum).toNat = sum.toNat + wordSum buf := by
  induction buf using wordSum.induct generalizing sum with
  | case1 => rfl
  | case2 a =>
      have := a.toNat_lt
      have one : (load [a]).toNat = a.toNat := by
        rw [load_toNat (by simp), ByteOrder.littleValue_cons]
        rfl
      rw [List.length_singleton] at room
      rw [csumPart, UInt64.toNat_add, one, wordSum]
      omega
  | case3 a b rest ih =>
      have := a.toNat_lt
      have := b.toNat_lt
      have word : (load [a, b]).toNat = a.toNat + 256 * b.toNat := by
        rw [load_toNat (by simp), ByteOrder.littleValue_cons, ByteOrder.littleValue_cons]
        rfl
      rw [List.length_cons, List.length_cons] at room
      have next : (sum + load [a, b]).toNat = sum.toNat + (a.toNat + 256 * b.toNat) := by
        rw [UInt64.toNat_add, word]
        omega
      rw [csumPart, ih _ (by omega), next, wordSum]
      omega

/-! ## Carries -/

theorem adc_toNat (acc word : UInt64) (carry : Bool) :
    (adc acc word carry).1.toNat + 2 ^ 64 * (adc acc word carry).2.toNat =
      acc.toNat + word.toNat + carry.toNat := by
  have := acc.toNat_lt
  have := word.toNat_lt
  have bit : carry.toUInt64.toNat = carry.toNat := by cases carry <;> rfl
  have := carry.toNat_le
  simp only [adc, UInt64.toNat_add, bit]
  by_cases carries : 2 ^ 64 ≤ acc.toNat + word.toNat + carry.toNat
  · simp only [carries, decide_true, Bool.toNat_true]
    omega
  · simp only [carries, decide_false, Bool.toNat_false]
    omega

/-- A sum that has just carried is not all ones, so the carry can be added to it. -/
def CarrySafe (s : UInt64 × Bool) : Prop := s.1.toNat + s.2.toNat < 2 ^ 64

theorem adc_safe {s : UInt64 × Bool} (safe : CarrySafe s) (word : UInt64) :
    CarrySafe (adc s.1 word s.2) := by
  have total := adc_toNat s.1 word s.2
  have := word.toNat_lt
  have := (adc s.1 word s.2).1.toNat_lt
  have := (adc s.1 word s.2).2.toNat_le
  unfold CarrySafe at safe ⊢
  omega

theorem adc_alike (s : UInt64 × Bool) (word : UInt64) :
    Alike (2 ^ 64 - 1) ((adc s.1 word s.2).1.toNat + (adc s.1 word s.2).2.toNat)
      (s.1.toNat + s.2.toNat + word.toNat) := by
  have total := adc_toNat s.1 word s.2
  have swapped : s.1.toNat + s.2.toNat + word.toNat =
      (adc s.1 word s.2).1.toNat + 2 ^ 64 * (adc s.1 word s.2).2.toNat := by omega
  rw [swapped]
  exact (Alike.refl _ _).add (alike_mul (2 ^ 64 - 1) _).symm

/-- The sum of 64-bit words as numbers. -/
def total (words : List UInt64) : ℕ := (words.map UInt64.toNat).sum

theorem total_cons (word : UInt64) (words : List UInt64) :
    total (word :: words) = word.toNat + total words := by
  simp [total]

theorem adcs_spec (words : List UInt64) {acc : UInt64} {carry : Bool}
    (safe : CarrySafe (acc, carry)) :
    CarrySafe (adcs words acc carry) ∧
      Alike (2 ^ 64 - 1) ((adcs words acc carry).1.toNat + (adcs words acc carry).2.toNat)
        (acc.toNat + carry.toNat + total words) := by
  induction words generalizing acc carry with
  | nil => exact ⟨safe, Alike.refl _ _⟩
  | cons word words ih =>
      obtain ⟨safe', alike⟩ := ih (adc_safe safe word)
      refine ⟨safe', alike.trans ?_⟩
      rw [total_cons, ← Nat.add_assoc]
      exact (adc_alike (acc, carry) word).add (Alike.refl _ _)

theorem addWithCarry_alike (acc : UInt64) (words : List UInt64) :
    Alike 65535 (addWithCarry acc words).toNat (acc.toNat + total words) := by
  have start : CarrySafe (acc, false) := acc.toNat_lt
  obtain ⟨safe, alike⟩ := adcs_spec words start
  have last := adc_toNat (adcs words acc false).1 0 (adcs words acc false).2
  have kept : (addWithCarry acc words).toNat =
      (adcs words acc false).1.toNat + (adcs words acc false).2.toNat := by
    have := (adc (adcs words acc false).1 0 (adcs words acc false).2).1.toNat_lt
    rw [addWithCarry]
    unfold CarrySafe at safe
    simp only [UInt64.toNat_zero] at last
    omega
  rw [kept]
  exact alike.of_dvd (by decide)

/-! ## Loads -/

theorem loads_total_alike (width n : ℕ) (bs : List UInt8) (even : 2 ∣ width) (narrow : width ≤ 8)
    (enough : width * n ≤ bs.length) :
    Alike 65535 (total (loads width n bs)) (wordSum (bs.take (width * n))) := by
  induction n with
  | zero => simpa [loads, total, wordSum] using Alike.refl 65535 0
  | succ n ih =>
      rw [Nat.mul_succ] at enough
      have front : (bs.take (width * n)).length = width * n := by
        rw [List.length_take]
        omega
      have last : (load ((bs.drop (width * n)).take width)).toNat =
          ByteOrder.littleValue ((bs.drop (width * n)).take width) :=
        load_toNat (by rw [List.length_take]; omega)
      have split : total (loads width (n + 1) bs) = total (loads width n bs) +
          ByteOrder.littleValue ((bs.drop (width * n)).take width) := by
        simp [total, loads, List.range_succ, last]
      rw [split, Nat.mul_succ, List.take_add,
        wordSum_append (by rw [front]; exact Dvd.dvd.mul_right even n)]
      exact (ih (by omega)).add (alike_littleValue _)

theorem total_loads_lt {width : ℕ} (narrow : width ≤ 4) (n : ℕ) (bs : List UInt8) :
    total (loads width n bs) ≤ n * 2 ^ 32 := by
  induction n with
  | zero => simp [loads, total]
  | succ n ih =>
      have short : ((bs.drop (width * n)).take width).length ≤ 4 :=
        (List.length_take_le _ _).trans narrow
      have bound : ByteOrder.littleValue ((bs.drop (width * n)).take width) <
          256 ^ ((bs.drop (width * n)).take width).length := ByteOrder.little.value_lt rfl
      have := Nat.pow_le_pow_right (show 0 < 256 by decide) short
      have one : (load ((bs.drop (width * n)).take width)).toNat < 256 ^ 4 := by
        rw [load_toNat (short.trans (by decide))]
        exact lt_of_lt_of_le bound this
      have split : total (loads width (n + 1) bs) = total (loads width n bs) +
          (load ((bs.drop (width * n)).take width)).toNat := by
        simp [total, loads, List.range_succ]
      rw [split]
      omega

/-! ## Blocks -/

/-- What the four sums stand for together. -/
def Sums.total (s : Sums) : ℕ := s.sum.toNat + s.sum1.toNat + s.sum2.toNat + s.sum3.toNat

theorem quarter_alike (acc : UInt64) (bs : List UInt8) (offset : ℕ)
    (enough : offset + 32 ≤ bs.length) :
    Alike 65535 (addWithCarry acc (loads 8 4 (bs.drop offset))).toNat
      (acc.toNat + wordSum ((bs.drop offset).take 32)) := by
  have words := loads_total_alike 8 4 (bs.drop offset) (by decide) le_rfl
    (by rw [List.length_drop]; omega)
  exact (addWithCarry_alike acc _).trans ((Alike.refl _ _).add words)

theorem wordSum_take_add {m k : ℕ} {bs : List UInt8} (even : 2 ∣ m) (enough : m ≤ bs.length) :
    wordSum (bs.take (m + k)) = wordSum (bs.take m) + wordSum ((bs.drop m).take k) := by
  rw [List.take_add, wordSum_append]
  rwa [List.length_take_of_le enough]

theorem block_alike (s : Sums) (bs : List UInt8) (enough : 128 ≤ bs.length) :
    Alike 65535 (s.block bs).total (s.total + wordSum (bs.take 128)) := by
  have first := quarter_alike s.sum bs 0 (by omega)
  have second := quarter_alike s.sum1 bs 32 (by omega)
  have third := quarter_alike s.sum2 bs 64 (by omega)
  have fourth := quarter_alike s.sum3 bs 96 (by omega)
  have whole : wordSum (bs.take 128) = wordSum ((bs.drop 0).take 32) +
      wordSum ((bs.drop 32).take 32) + wordSum ((bs.drop 64).take 32) +
      wordSum ((bs.drop 96).take 32) := by
    rw [show 128 = 96 + 32 from rfl, wordSum_take_add (by decide) (by omega),
      show 96 = 64 + 32 from rfl, wordSum_take_add (by decide) (by omega),
      show 64 = 32 + 32 from rfl, wordSum_take_add (by decide) (by omega), List.drop_zero]
  have sums := ((first.add second).add third).add fourth
  rw [List.drop_zero] at sums
  have regrouped : s.total + wordSum (bs.take 128) =
      s.sum.toNat + wordSum (bs.take 32) + (s.sum1.toNat + wordSum ((bs.drop 32).take 32)) +
        (s.sum2.toNat + wordSum ((bs.drop 64).take 32)) +
        (s.sum3.toNat + wordSum ((bs.drop 96).take 32)) := by
    rw [whole, List.drop_zero, Sums.total]
    omega
  rw [regrouped]
  exact sums

theorem blocks_alike (n : ℕ) (s : Sums) (bs : List UInt8) (enough : 128 * n ≤ bs.length) :
    Alike 65535 (Sums.blocks n bs s).total (s.total + wordSum (bs.take (128 * n))) := by
  induction n generalizing s bs with
  | zero => exact Alike.refl _ _
  | succ n ih =>
      have here := block_alike s bs (by omega)
      have others := ih (s.block bs) (bs.drop 128) (by rw [List.length_drop]; omega)
      have split : wordSum (bs.take (128 * (n + 1))) =
          wordSum (bs.take 128) + wordSum ((bs.drop 128).take (128 * n)) := by
        rw [Nat.mul_succ, Nat.add_comm, wordSum_take_add (by decide) (by omega)]
      rw [split, ← Nat.add_assoc]
      exact others.trans (here.add (Alike.refl _ _))

theorem combine_alike (s : Sums) : Alike 65535 s.combine.toNat s.total := by
  have high := addWithCarry_alike s.sum1 [s.sum3]
  have low := addWithCarry_alike s.sum [s.sum2]
  have both := addWithCarry_alike (addWithCarry s.sum [s.sum2]) [addWithCarry s.sum1 [s.sum3]]
  simp only [Tx.total, List.map_cons, List.map_nil, List.sum_cons, List.sum_nil,
    Nat.add_zero] at high low both
  have regrouped : s.total = s.sum.toNat + s.sum2.toNat + (s.sum1.toNat + s.sum3.toNat) := by
    rw [Sums.total]
    omega
  rw [regrouped]
  exact (fold32_alike _).trans (both.trans (low.add high))

theorem combine_le (s : Sums) : s.combine.toNat ≤ 2 ^ 33 := by
  have folded := fold32_toNat
    (addWithCarry (addWithCarry s.sum [s.sum2]) [addWithCarry s.sum1 [s.sum3]])
  have :=
    (addWithCarry (addWithCarry s.sum [s.sum2]) [addWithCarry s.sum1 [s.sum3]]).toNat_lt
  show (fold32 _).toNat ≤ _
  omega

/-! ## Pieces -/

theorem sum_toNat (words : List UInt64) (room : total words < 2 ^ 64) :
    words.sum.toNat = total words := by
  induction words with
  | nil => rfl
  | cons word words ih =>
      rw [total_cons] at room ⊢
      rw [List.sum_cons, UInt64.toNat_add, ih (by omega), Nat.mod_eq_of_lt room]

/-- What is left of the buffer is less than `size` bytes, and the sum so far, which has
grown by no more than what came before, stands with it for `target`. -/
structure Pending (len size base target : ℕ) (s : UInt64 × List UInt8) : Prop where
  length : s.2.length = len % size
  bound : s.1.toNat ≤ base + (128 - size) * 2 ^ 32
  alike : Alike 65535 (s.1.toNat + wordSum s.2) target

theorem and_two_pow_ne_zero (len k : ℕ) : len &&& 2 ^ k ≠ 0 ↔ 2 ^ k ≤ len % 2 ^ (k + 1) := by
  rw [Nat.and_two_pow, Nat.pow_succ, Nat.mod_mul, Nat.testBit_eq_decide_div_mod_eq]
  have low := Nat.mod_lt len (Nat.two_pow_pos k)
  rcases Nat.mod_two_eq_zero_or_one (len / 2 ^ k) with even | odd
  · simp [even, low]
  · simp [odd]

section Piece

variable {len base target : ℕ} {s : UInt64 × List UInt8}

theorem Pending.skip {k : ℕ} (pending : Pending len (2 ^ (k + 1)) base target s)
    (clear : ¬ 2 ^ k ≤ len % 2 ^ (k + 1)) : Pending len (2 ^ k) base target s := by
  have half : len % 2 ^ (k + 1) = len % 2 ^ k := by
    rw [Nat.pow_succ, Nat.mod_mul] at clear ⊢
    rcases Nat.mod_two_eq_zero_or_one (len / 2 ^ k) with even | odd
    · rw [even, Nat.mul_zero, Nat.add_zero]
    · rw [odd] at clear
      omega
  refine ⟨pending.length.trans half, pending.bound.trans ?_, pending.alike⟩
  have : 2 ^ k ≤ 2 ^ (k + 1) := Nat.pow_le_pow_right (by decide) (by omega)
  exact Nat.add_le_add_left (Nat.mul_le_mul_right _ (by omega)) _

/-- A piece of at least two bytes. -/
theorem Pending.piece (k width : ℕ) (pending : Pending len (2 ^ (k + 1)) base target s)
    (small : k + 1 ≤ 7) (room : base + 128 * 2 ^ 32 < 2 ^ 64) (even : 2 ∣ width)
    (narrow : width ≤ 4) (divides : width ∣ 2 ^ k) :
    Pending len (2 ^ k) base target (piece len (2 ^ k) width s) := by
  unfold Tx.piece
  by_cases set : len &&& 2 ^ k ≠ 0
  · rw [if_pos set]
    rw [and_two_pow_ne_zero] at set
    have seven : 2 ^ (k + 1) ≤ 2 ^ 7 := Nat.pow_le_pow_right (by decide) small
    have double : 2 ^ (k + 1) = 2 ^ k + 2 ^ k := by rw [Nat.pow_succ]; omega
    have whole : width * (2 ^ k / width) = 2 ^ k := Nat.mul_div_cancel' divides
    have few : 2 ^ k / width ≤ 2 ^ k := Nat.div_le_self _ _
    have bound := total_loads_lt narrow (2 ^ k / width) s.2
    have start := pending.bound
    have summed := sum_toNat (loads width (2 ^ k / width) s.2) (by omega)
    have added : (s.1 + (loads width (2 ^ k / width) s.2).sum).toNat =
        s.1.toNat + total (loads width (2 ^ k / width) s.2) := by
      rw [UInt64.toNat_add, summed]
      omega
    have words := loads_total_alike width (2 ^ k / width) s.2 even
      (narrow.trans (by decide)) (by rw [whole, pending.length]; exact set)
    rw [whole] at words
    refine ⟨?_, ?_, ?_⟩
    · have half : len % 2 ^ (k + 1) = len % 2 ^ k + 2 ^ k := by
        rw [Nat.pow_succ, Nat.mod_mul] at set ⊢
        rcases Nat.mod_two_eq_zero_or_one (len / 2 ^ k) with even | odd
        · rw [even] at set
          have := Nat.mod_lt len (Nat.two_pow_pos k)
          omega
        · rw [odd, Nat.mul_one]
      rw [List.length_drop, pending.length, half, Nat.add_sub_cancel]
    · rw [added]
      omega
    · have parts : wordSum s.2 = wordSum (s.2.take (2 ^ k)) + wordSum (s.2.drop (2 ^ k)) := by
        rw [← wordSum_append, List.take_append_drop]
        rw [List.length_take_of_le (by rw [pending.length]; exact set)]
        exact even.trans divides
      refine Alike.trans ?_ pending.alike
      rw [added, parts, ← Nat.add_assoc]
      exact ((Alike.refl _ _).add words).add (Alike.refl _ _)
  · rw [if_neg set]
    rw [and_two_pow_ne_zero] at set
    exact pending.skip set

/-- The last piece is the odd byte. -/
theorem Pending.odd (pending : Pending len 2 base target s) (room : base + 128 * 2 ^ 32 < 2 ^ 64) :
    Alike 65535 (Tx.piece len 1 1 s).1.toNat target := by
  have alike := pending.alike
  have length := pending.length
  have start := pending.bound
  obtain ⟨sum, rest⟩ := s
  unfold Tx.piece
  simp only [Nat.and_one_is_mod] at length ⊢
  rcases Nat.mod_two_eq_zero_or_one len with even | odd
  · rw [even, List.length_eq_zero_iff] at length
    rw [if_neg (by rw [even]; decide)]
    simpa only [length, wordSum, Nat.add_zero] using alike
  · rw [odd, List.length_eq_one_iff] at length
    obtain ⟨a, rfl⟩ := length
    have := a.toNat_lt
    have one : (load [a]).toNat = a.toNat := by
      rw [load_toNat (by simp), ByteOrder.littleValue_cons]
      rfl
    have single : (loads 1 1 [a]).sum = load [a] := by
      simp [loads]
    rw [if_pos (by rw [odd]; decide)]
    simp only [Nat.div_one, single]
    rw [UInt64.toNat_add, one, Nat.mod_eq_of_lt (by simp only at start; omega)]
    exact alike

theorem pieces_alike (pending : Pending len 128 base target s)
    (room : base + 128 * 2 ^ 32 < 2 ^ 64) : Alike 65535 (pieces len s).1.toNat target := by
  have p64 := Pending.piece 6 4 pending (by decide) room (by decide) le_rfl (by decide)
  have p32 := p64.piece 5 4 (by decide) room (by decide) le_rfl (by decide)
  have p16 := p32.piece 4 4 (by decide) room (by decide) le_rfl (by decide)
  have p8 := p16.piece 3 4 (by decide) room (by decide) le_rfl (by decide)
  have p4 := p8.piece 2 4 (by decide) room (by decide) le_rfl (by decide)
  have p2 := p4.piece 1 2 (by decide) room (by decide) (by decide) (by decide)
  exact p2.odd room

end Piece

/-! ## The whole sum -/

/-- What amd64 adds up stands for the sum of the 16-bit words. -/
theorem csumPartAmd64_alike (buf : List UInt8) {sum : UInt64} (small : sum.toNat < 2 ^ 63) :
    Alike 65535 (csumPartAmd64 buf sum).toNat (sum.toNat + wordSum buf) := by
  have front : (buf.take (128 * (buf.length / 128))).length = 128 * (buf.length / 128) := by
    rw [List.length_take]
    omega
  have parts : wordSum buf = wordSum (buf.take (128 * (buf.length / 128))) +
      wordSum (buf.drop (128 * (buf.length / 128))) := by
    rw [← wordSum_append (by rw [front]; exact ⟨64 * (buf.length / 128), by omega⟩),
      List.take_append_drop]
  have rest : (buf.drop (128 * (buf.length / 128))).length = buf.length % 128 % 128 := by
    rw [List.length_drop]
    omega
  simp only [csumPartAmd64]
  by_cases blocks : 128 ≤ buf.length
  · rw [if_pos blocks]
    have bound := combine_le (Sums.blocks (buf.length / 128) buf ⟨sum, 0, 0, 0⟩)
    have room : 2 ^ 33 + 128 * 2 ^ 32 < 2 ^ 64 := by decide
    refine pieces_alike ⟨rest, by simpa using bound, ?_⟩ room
    have added := blocks_alike (buf.length / 128) ⟨sum, 0, 0, 0⟩ buf (by omega)
    rw [parts, ← Nat.add_assoc]
    exact ((combine_alike _).trans added).add (Alike.refl _ _)
  · rw [if_neg blocks]
    have room : sum.toNat + 128 * 2 ^ 32 < 2 ^ 64 := by omega
    refine pieces_alike ⟨rest, by simp, ?_⟩ room
    have none : buf.length / 128 = 0 := by omega
    rw [none]
    exact Alike.refl _ _

/-- **The amd64 checksum is the plain one.**  Whatever the buffer, its length and the
sum it continues, both paths give the same 16 bits, and these stand for the sum of the
buffer's 16-bit words. -/
theorem csum_agrees (buf : List UInt8) (sum : UInt64) (short : buf.length < 2 ^ 46)
    (small : sum.toNat < 2 ^ 63) :
    csum buf sum = csumPack (csumPart buf sum) ∧
      Alike 65535 (csum buf sum).toNat (sum.toNat + wordSum buf) := by
  have amd64 := csumPartAmd64_alike buf small
  have plain := csumPart_toNat buf sum (by omega)
  refine ⟨csumPack_congr ?_, (csumPack_alike _).trans amd64⟩
  rw [plain]
  exact amd64

/-- One block, one piece of each kind, and an odd byte. -/
theorem csum_agrees_odd :
    csum (List.replicate 255 0xa7) 5 = csumPack (csumPart (List.replicate 255 0xa7) 5) ∧
      Alike 65535 (csum (List.replicate 255 0xa7) 5).toNat
        ((5 : UInt64).toNat + wordSum (List.replicate 255 0xa7)) :=
  csum_agrees (List.replicate 255 0xa7) 5 (by rw [List.length_replicate]; decide) (by decide)

end ExanicCapture.Tx
