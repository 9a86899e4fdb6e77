/-
# Capture.Path -- the name of a rotated save file

`path_basename`, `path_dirname_into`, `split_base_ext` and the `snprintf` of
`rotate_file`.  A C string is the list of its characters; a buffer of `n` bytes
keeps the first `n - 1` of them.

`rotatedPath_injective`: two rotations of one capture never get the same name.
-/
import Mathlib.Data.List.Basic
import Mathlib.Tactic.Common

namespace ExanicCapture.Capture

set_option autoImplicit false

/-- A C string, without its terminator. -/
abbrev CStr := List Char

/-- `snprintf(buf, size, "%s", s)` with `size > 0`. -/
def fit (size : ℕ) (s : CStr) : CStr := s.take (size - 1)

/-- `%d`. -/
def decimal (n : Int32) : CStr :=
  if n.toInt < 0 then '-' :: Nat.toDigits 10 n.toInt.natAbs else Nat.toDigits 10 n.toInt.natAbs

/-- What stands before and after the last `c`, found with `strrchr`. -/
def splitLast (c : Char) : CStr → Option (CStr × CStr)
  | [] => none
  | x :: s =>
      match splitLast c s with
      | some (front, back) => some (x :: front, back)
      | none => if x = c then some ([], s) else none

/-- `path_basename`. -/
def pathBasename (path : CStr) : CStr :=
  match splitLast '/' path with
  | some (_, name) => name
  | none => path

/-- `path_dirname_into`. -/
def pathDirnameInto (path : CStr) (outSize : ℕ) : CStr :=
  match splitLast '/' path with
  | some (dir, _) => fit outSize dir
  | none => fit outSize ['.']

inductive FileFormat where
  | pcap
  | erf
deriving DecidableEq

/-- The extension of a name that has none. -/
def FileFormat.extension : FileFormat → CStr
  | .pcap => ['p', 'c', 'a', 'p']
  | .erf => ['e', 'r', 'f']

/-- `split_base_ext`. -/
def splitBaseExt (fname : CStr) (baseSize extSize : ℕ) (format : FileFormat) : CStr × CStr :=
  match splitLast '.' fname with
  | some (front, back) =>
      if front ≠ [] then (fit baseSize front, fit extSize back)
      else (fit baseSize fname, fit extSize format.extension)
  | none => (fit baseSize fname, fit extSize format.extension)

/-- `out_dir` of `rotate_file`. -/
def outDir (savefile : CStr) (repoDir : Option CStr) : CStr :=
  if '/' ∈ savefile then pathDirnameInto savefile 2048
  else
    match repoDir with
    | some (c :: dir) => fit 2048 (c :: dir)
    | _ => fit 2048 ['.']

/-- `"%s/%s%d.%s"` of `rotate_file`. -/
def rotatedPath (savefile : CStr) (repoDir : Option CStr) (format : FileFormat) (idx : Int32) :
    CStr :=
  let (base, ext) := splitBaseExt (pathBasename savefile) 2048 32 format
  outDir savefile repoDir ++ '/' :: base ++ decimal idx ++ '.' :: ext

theorem toDigits_injective : Function.Injective (Nat.toDigits 10) := by
  intro m n same
  have value := congrArg (Nat.ofDigitChars 10 · 0) same
  simpa only [Nat.ofDigitChars_ten_toDigits] using value

theorem minus_ne_toDigits (k : ℕ) (s : CStr) : '-' :: s ≠ Nat.toDigits 10 k := by
  intro same
  have member : '-' ∈ Nat.toDigits 10 k := same ▸ List.mem_cons_self
  exact absurd (Nat.isDigit_of_mem_toDigits (by decide) (by decide) member) (by decide)

theorem decimal_injective : Function.Injective decimal := by
  intro m n same
  refine Int32.toInt_inj.1 ?_
  unfold decimal at same
  by_cases negative : m.toInt < 0 <;> by_cases negative' : n.toInt < 0 <;>
    simp only [negative, negative', if_true, if_false] at same
  · have digits := toDigits_injective (List.cons.inj same).2
    omega
  · exact absurd same (minus_ne_toDigits _ _)
  · exact absurd same.symm (minus_ne_toDigits _ _)
  · have digits := toDigits_injective same
    omega

theorem rotatedPath_injective (savefile : CStr) (repoDir : Option CStr) (format : FileFormat) :
    Function.Injective (rotatedPath savefile repoDir format) := by
  intro m n same
  refine decimal_injective ?_
  simpa [rotatedPath] using same

example : rotatedPath "out/cap.v1.pcap".toList none .pcap 12 = "out/cap.v112.pcap".toList := by
  decide

end ExanicCapture.Capture
