/-
# Save.Hexdump -- a frame printed on the standard output

`print_hexdump`: sixteen bytes a line, in hexadecimal and as characters.  Besides the
text the model keeps the positions of `data` that are read.
-/
import ExanicCapture.Save.Frame

namespace ExanicCapture.Save

set_option autoImplicit false

open Theory

/-- `isprint` in the C locale. -/
def isprint (byte : UInt8) : Bool := decide (32 ≤ byte.toNat) && decide (byte.toNat < 127)

/-- `%02x`, `%04x`. -/
def hex (width n : ℕ) : List Char :=
  let digits := Nat.toDigits 16 n
  List.replicate (width - digits.length) '0' ++ digits

/-- The array `ascii`, the text printed so far, and the positions read so far. -/
structure Hexdump where
  ascii : ℕ → Char
  text : List Char
  reads : List ℕ

/-- The body of the loop. -/
def Hexdump.step (data : ℕ → UInt8) (h : Hexdump) (i : ℕ) : Hexdump :=
  let offset := if i % 16 = 0 then hex 4 i ++ [':', ' '] else []
  let byte := hex 2 (data i).toNat
  let ascii :=
    Memory.copy h.ascii (i % 16)
      [if isprint (data i) then Char.ofNat (data i).toNat else '.']
  let space := if (i + 1) % 2 = 0 then [' '] else []
  let line := if (i + 1) % 16 = 0 then ' ' :: Memory.front 16 ascii ++ ['\n'] else []
  { ascii, text := h.text ++ offset ++ byte ++ space ++ line, reads := h.reads ++ [i] }

/-- The loop, `i` from 0 to `len`. -/
def Hexdump.loop (data : ℕ → UInt8) (len : ℕ) (h : Hexdump) : Hexdump :=
  (List.range len).foldl (step data) h

/-- `print_hexdump`.  `ascii` is not initialised. -/
def printHexdump (ascii : ℕ → Char) (data : ℕ → UInt8) (len : Int32) : Hexdump :=
  let i := len.toInt.toNat
  let h := Hexdump.loop data i { ascii, text := [], reads := [] }
  let rem := i % 16
  if rem ≠ 0 then
    -- `%*.*s`: at most `rem` characters, blanks in front up to the width
    let width := 2 * (16 - rem) + (16 - rem + 1) / 2 + rem + 1
    { h with
      text := h.text ++ List.replicate (width - rem) ' ' ++ Memory.front rem h.ascii ++ ['\n'] }
  else h

theorem Hexdump.loop_reads (data : ℕ → UInt8) (len : ℕ) (h : Hexdump) :
    (loop data len h).reads = h.reads ++ List.range len := by
  induction len with
  | zero => simp [loop]
  | succ len ih =>
      have unrolled : loop data (len + 1) h = step data (loop data len h) len := by
        simp only [loop, List.range_succ, List.foldl_append, List.foldl_cons, List.foldl_nil]
      rw [unrolled, List.range_succ, ← List.append_assoc, ← ih]
      rfl

/-- Every position below `len` is read, in order; none if `len` is negative. -/
theorem printHexdump_reads (ascii : ℕ → Char) (data : ℕ → UInt8) (len : Int32) :
    (printHexdump ascii data len).reads = List.range len.toInt.toNat := by
  dsimp only [printHexdump]
  split <;> exact Hexdump.loop_reads data _ _

end ExanicCapture.Save
