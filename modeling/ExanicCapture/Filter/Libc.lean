/-
# Filter.Libc -- the numerals and addresses the C library reads

`strtoul` with base 0 and `inet_aton`, as far as the filter parser depends on them.
A numeral has optional white space and a sign in front; `0x` makes it hexadecimal and
a leading `0` octal.  `scanNumeral` keeps the value as it is written; `strtoul` turns
it into an `unsigned long`.
-/
import ExanicCapture.Capture.Path

namespace ExanicCapture.Filter

set_option autoImplicit false

open Capture

/-! ## `strtoul` -/

/-- `isspace` in the C locale. -/
def isSpace (c : Char) : Bool := c = ' ' || (9 ≤ c.toNat && c.toNat ≤ 13)

/-- The value of a digit in the given base. -/
def digitOf (base : ℕ) (c : Char) : Option ℕ :=
  let digit :=
    if '0' ≤ c ∧ c ≤ '9' then some (c.toNat - '0'.toNat)
    else if 'a' ≤ c ∧ c ≤ 'z' then some (c.toNat - 'a'.toNat + 10)
    else if 'A' ≤ c ∧ c ≤ 'Z' then some (c.toNat - 'A'.toNat + 10)
    else none
  digit.filter (· < base)

/-- All digits from the front, behind those that make `value`, and what follows. -/
def digits (base value : ℕ) : CStr → ℕ × CStr
  | [] => (value, [])
  | c :: s =>
      match digitOf base c with
      | some d => digits base (value * base + d) s
      | none => (value, c :: s)

/-- A number without a sign, and what follows. -/
def scanUnsigned : CStr → Option (ℕ × CStr)
  | [] => none
  | c :: s =>
      if c = '0' then
        match s with
        | x :: h :: t =>
            -- without a hexadecimal digit behind it, the `x` is not part of the number
            if (x = 'x' || x = 'X') && (digitOf 16 h).isSome then some (digits 16 0 (h :: t))
            else some (digits 8 0 s)
        | _ => some (digits 8 0 s)
      else if (digitOf 10 c).isSome then some (digits 10 0 (c :: s))
      else none

/-- A number with its sign, and what follows; `none` without a digit. -/
def scanNumeral (s : CStr) : Option (Int × CStr) :=
  match s.dropWhile isSpace with
  | [] => none
  | c :: t =>
      if c = '-' then (scanUnsigned t).map fun n => (-n.1, n.2)
      else if c = '+' then (scanUnsigned t).map fun n => (n.1, n.2)
      else (scanUnsigned (c :: t)).map fun n => (n.1, n.2)

/-- The value of a string that is a numeral as a whole. -/
def numeral (s : CStr) : Option Int :=
  match scanNumeral s with
  | some (value, []) => some value
  | _ => none

/-- `ULONG_MAX`. -/
def ulongMax : ℕ := 18446744073709551615

/-- `strtoul(nptr, &endptr, 0)`: the value, and the string at `endptr`. -/
def strtoul (nptr : CStr) : ℕ × CStr :=
  match scanNumeral nptr with
  | some (value, rest) =>
      (if value.natAbs > ulongMax then ulongMax else (value % (ulongMax + 1)).toNat, rest)
  | none => (0, nptr)

/-- The whole string is read when it is a numeral, or empty. -/
theorem strtoul_whole {s : CStr} : (strtoul s).2 = [] ↔ s = [] ∨ (numeral s).isSome := by
  unfold strtoul numeral
  cases scanned : scanNumeral s with
  | none => simp
  | some result =>
      obtain ⟨value, rest⟩ := result
      have nonempty : s ≠ [] := by
        rintro rfl
        cases scanned
      cases rest <;> simp [nonempty]

/-- A numeral of 16 bits is read as it is written. -/
theorem strtoul_of_numeral {s : CStr} {value : ℕ} (reads : numeral s = some (value : Int))
    (small : value < 65536) : strtoul s = (value, []) := by
  unfold numeral at reads
  split at reads
  · rename_i v scanned
    cases reads
    have fits : ¬ (value : Int).natAbs > ulongMax := by
      simp only [Int.natAbs_natCast, ulongMax]
      omega
    have same : ((value : Int) % (ulongMax + 1)).toNat = value := by
      have cap : (ulongMax : Int) = 18446744073709551615 := rfl
      rw [cap]
      omega
    simp only [strtoul, scanned, fits, if_false, same]
  · cases reads

example : strtoul ['0', 'x', '5', '0'] = (80, []) ∧ strtoul ['0', 'x', 'g'] = (0, ['x', 'g']) ∧
    strtoul ['-', '1'] = (18446744073709551615, []) ∧ strtoul [] = (0, []) := by decide

/-! ## `inet_aton` -/

/-- The rest of an address behind the parts that make `word`, with at most so many dots.
The last part fills all bytes that are left. -/
def inetParts (dots word : ℕ) (cp : CStr) : Option ℕ :=
  if ((cp.head?).bind (digitOf 10)).isSome then
    let (value, rest) := strtoul cp
    match rest with
    | [] => if value < 256 ^ (dots + 1) then some (word * 256 ^ (dots + 1) + value) else none
    | c :: s =>
        if c = '.' then
          match dots with
          | 0 => none
          | dots + 1 => if value ≤ 255 then inetParts dots (word * 256 + value) s else none
        -- what stands behind white space is ignored
        else if isSpace c && decide (value < 256 ^ (dots + 1)) then
          some (word * 256 ^ (dots + 1) + value)
        else none
  else none

/-- `inet_aton`: the address, most significant byte first. -/
def inetAton (cp : CStr) : Option UInt32 := (inetParts 3 0 cp).map UInt32.ofNat

example : inetAton ['1', '.', '2', '.', '3', '.', '4'] = some 0x01020304 ∧
    inetAton ['1', '.', '2'] = some 0x01000002 ∧ inetAton ['2', '5', '6', '.', '1'] = none := by
  decide

end ExanicCapture.Filter
