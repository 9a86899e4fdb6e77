/-
# Capture.Strtol -- the numbers on the command line

`strtol` with base 10, and `atoi`.  A numeral has optional white space and a sign in
front.  `scanDecimal` keeps the value as it is written; `strtol` cuts it off at the
ends of a `long`, and what is stored in an `int` is the low 32 bits of that.

`decimalValue_decimal`: what `%d` prints is read back, so every `int` can be given.
-/
import ExanicCapture.Filter.Libc

namespace ExanicCapture.Capture

set_option autoImplicit false

open ExanicCapture.Filter

/-! ## `strtol` -/

/-- The digits at the front, at least one, and what follows. -/
def scanDigits : CStr → Option (ℕ × CStr)
  | [] => none
  | c :: s => if (digitOf 10 c).isSome then some (digits 10 0 (c :: s)) else none

/-- A number with its sign, and what follows; `none` without a digit. -/
def scanDecimal (s : CStr) : Option (Int × CStr) :=
  match s.dropWhile isSpace with
  | [] => none
  | c :: t =>
      if c = '-' then (scanDigits t).map fun n => (-n.1, n.2)
      else if c = '+' then (scanDigits t).map fun n => (n.1, n.2)
      else (scanDigits (c :: t)).map fun n => (n.1, n.2)

/-- The value of a string that is a decimal numeral as a whole. -/
def decimalValue (s : CStr) : Option Int :=
  match scanDecimal s with
  | some (value, []) => some value
  | _ => none

/-- `LONG_MIN`. -/
def longMin : Int := -9223372036854775808
/-- `LONG_MAX`. -/
def longMax : Int := 9223372036854775807

/-- What `strtol` makes of a value outside the range of `long`. -/
def cutToLong (value : Int) : Int := max longMin (min value longMax)

/-- `strtol(nptr, &endptr, 10)`: the value, and the string at `endptr`. -/
def strtol (nptr : CStr) : Int × CStr :=
  match scanDecimal nptr with
  | some (value, rest) => (cutToLong value, rest)
  | none => (0, nptr)

/-- `atoi`. -/
def atoi (nptr : CStr) : Int32 := .ofInt (strtol nptr).1

/-- The value is one of an `int`. -/
def FitsInt (value : Int) : Prop := Int32.minValue.toInt ≤ value ∧ value ≤ Int32.maxValue.toInt

/-- An `int` keeps a value exactly if it has it. -/
theorem ofInt_cutToLong_iff (value : Int) :
    (Int32.ofInt (cutToLong value)).toInt = value ↔ FitsInt value := by
  have lowest : Int32.minValue.toInt = -2147483648 := rfl
  have highest : Int32.maxValue.toInt = 2147483647 := rfl
  rw [FitsInt, lowest, highest]
  constructor
  · intro kept
    -- the low 32 bits are always those of an `int`
    have low := (Int32.ofInt (cutToLong value)).le_toInt
    have high := (Int32.ofInt (cutToLong value)).toInt_lt
    rw [kept] at low high
    omega
  · rintro ⟨low, high⟩
    have size : Int32.size = 4294967296 := rfl
    have inside : cutToLong value = value := by
      unfold cutToLong longMin longMax
      omega
    rw [inside, Int32.toInt_ofInt, size]
    exact Int.bmod_eq_of_le_mul_two (by omega) (by omega)

/-- A string is read to its end if it is a numeral, or empty. -/
theorem strtol_whole {s : CStr} : (strtol s).2 = [] ↔ s = [] ∨ (decimalValue s).isSome := by
  unfold strtol decimalValue
  cases scanned : scanDecimal s with
  | none => simp
  | some result =>
      obtain ⟨value, rest⟩ := result
      have nonempty : s ≠ [] := by
        rintro rfl
        cases scanned
      cases rest <;> simp [nonempty]

theorem strtol_of_value {s : CStr} {value : Int} (reads : decimalValue s = some value) :
    strtol s = (cutToLong value, []) := by
  unfold decimalValue at reads
  split at reads
  · rename_i v scanned
    cases reads
    simp only [strtol, scanned]
  · cases reads

example : strtol ['\t', '-', '1', 'x'] = (-1, ['x']) ∧ strtol [' ', '+'] = (0, [' ', '+']) ∧
    atoi ['3', '0', '0', '0', '0', '0', '0', '0', '0', '0'] = -1294967296 := by decide

/-! ## What `%d` prints -/

theorem digitOf_of_isDigit {c : Char} (digit : c.isDigit = true) :
    digitOf 10 c = some (c.toNat - '0'.toNat) := by
  have range := Char.isDigit_iff_toNat.1 digit
  have low : '0' ≤ c := Char.le_def.2 range.1
  have high : c ≤ '9' := Char.le_def.2 range.2
  have zero : '0'.toNat = 48 := rfl
  have nine : '9'.toNat = 57 := rfl
  simp only [digitOf, low, high, and_self, if_true, Option.filter_some, decide_eq_true_eq]
  exact if_pos (by omega)

/-- Digits are read as the number they write. -/
theorem digits_of_isDigit {s : CStr} (all : ∀ c ∈ s, c.isDigit = true) (value : ℕ) :
    digits 10 value s = (Nat.ofDigitChars 10 s value, []) := by
  induction s generalizing value with
  | nil => simp [digits]
  | cons c s ih =>
      rw [digits, digitOf_of_isDigit (all c List.mem_cons_self), Nat.ofDigitChars_cons,
        Nat.mul_comm 10]
      exact ih (fun x member => all x (List.mem_cons_of_mem _ member)) _

theorem scanDigits_toDigits (n : ℕ) : scanDigits (Nat.toDigits 10 n) = some (n, []) := by
  have all : ∀ c ∈ Nat.toDigits 10 n, c.isDigit = true := fun c member =>
    Nat.isDigit_of_mem_toDigits (by decide) (by decide) member
  have value : Nat.ofDigitChars 10 (Nat.toDigits 10 n) 0 = n := Nat.ofDigitChars_ten_toDigits
  cases text : Nat.toDigits 10 n with
  | nil => exact absurd text Nat.toDigits_ne_nil
  | cons c s =>
      rw [text] at all value
      rw [scanDigits, digitOf_of_isDigit (all c List.mem_cons_self), Option.isSome_some, if_pos rfl,
        digits_of_isDigit all, value]

/-- A digit is neither skipped nor taken for a sign. -/
theorem scanDecimal_of_isDigit {c : Char} (s : CStr) (digit : c.isDigit = true) :
    scanDecimal (c :: s) = (scanDigits (c :: s)).map fun n => ((n.1 : Int), n.2) := by
  have range := Char.isDigit_iff_toNat.1 digit
  have zero : '0'.toNat = 48 := rfl
  have other : ∀ d : Char, d.isDigit = false → c ≠ d := by
    rintro d notDigit rfl
    exact absurd digit (by simp [notDigit])
  have notSpace : ¬ isSpace c = true := by
    simp only [isSpace, other ' ' (by decide), decide_false, Bool.false_or, Bool.and_eq_true,
      decide_eq_true_eq]
    omega
  rw [scanDecimal, List.dropWhile_cons_of_neg notSpace]
  simp only [other '-' (by decide), other '+' (by decide), if_false]

theorem scanDecimal_toDigits (n : ℕ) :
    scanDecimal (Nat.toDigits 10 n) = some ((n : Int), []) := by
  have read := scanDigits_toDigits n
  have all : ∀ c ∈ Nat.toDigits 10 n, c.isDigit = true := fun c member =>
    Nat.isDigit_of_mem_toDigits (by decide) (by decide) member
  cases text : Nat.toDigits 10 n with
  | nil => exact absurd text Nat.toDigits_ne_nil
  | cons c s =>
      rw [text] at read all
      rw [scanDecimal_of_isDigit s (all c List.mem_cons_self), read, Option.map_some]

theorem scanDecimal_minus (n : ℕ) :
    scanDecimal ('-' :: Nat.toDigits 10 n) = some (-(n : Int), []) := by
  have kept : ('-' :: Nat.toDigits 10 n).dropWhile isSpace = '-' :: Nat.toDigits 10 n :=
    List.dropWhile_cons_of_neg (by decide)
  simp only [scanDecimal, kept, if_true, scanDigits_toDigits, Option.map_some]

theorem decimalValue_decimal (n : Int32) : decimalValue (decimal n) = some n.toInt := by
  have scanned : scanDecimal (decimal n) = some (n.toInt, []) := by
    unfold decimal
    split
    · rename_i negative
      rw [scanDecimal_minus]
      congr 2
      omega
    · rename_i nonneg
      rw [scanDecimal_toDigits]
      congr 2
      omega
  simp only [decimalValue, scanned]

end ExanicCapture.Capture
