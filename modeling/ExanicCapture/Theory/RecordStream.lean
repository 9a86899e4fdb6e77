/-
# Theory.RecordStream -- files that are one record after another

A reader `next` takes one record off the front of its input.  `decodeAll` reads
records until nothing is left; it fails when `next` does, so it accepts a file
only as a whole.  The fuel is the number of bytes, enough for a reader that takes
at least one byte a record.

`decodeAll_flatMap` is the round trip: if `next` undoes the encoding of each
record in front of any rest, it reads back a concatenation of encodings.
`decodeAll_length` counts: the bytes of an accepted file are the sizes of its
records.
-/
import Mathlib.Algebra.BigOperators.Group.List.Basic
import Mathlib.Tactic.Ring

namespace ExanicCapture.Theory.RecordStream

set_option autoImplicit false

universe u v

variable {ρ : Type u} {α : Type v} {next : List UInt8 → Option (ρ × List UInt8)}

/-- Read records until the input is used up, at most `fuel` of them. -/
def decode (next : List UInt8 → Option (ρ × List UInt8)) : ℕ → List UInt8 → Option (List ρ)
  | _, [] => some []
  | 0, _ :: _ => none
  | fuel + 1, b :: bs =>
      match next (b :: bs) with
      | none => none
      | some (r, rest) => (decode next fuel rest).map (r :: ·)

/-- Read the whole input as records. -/
def decodeAll (next : List UInt8 → Option (ρ × List UInt8)) (input : List UInt8) :
    Option (List ρ) :=
  decode next input.length input

theorem decode_nil (fuel : ℕ) : decode next fuel [] = some [] := by
  cases fuel <;> rfl

theorem decode_next {fuel : ℕ} {input rest : List UInt8} {r : ρ} (more : input ≠ [])
    (read : next input = some (r, rest)) :
    decode next (fuel + 1) input = (decode next fuel rest).map (r :: ·) := by
  cases input with
  | nil => exact absurd rfl more
  | cons b bs => rw [decode, read]

theorem decode_flatMap {encode : α → List UInt8} {view : α → ρ} {as : List α}
    (reads : ∀ a ∈ as, ∀ rest, next (encode a ++ rest) = some (view a, rest))
    (nonempty : ∀ a ∈ as, encode a ≠ []) {fuel : ℕ} (enough : as.length ≤ fuel) :
    decode next fuel (as.flatMap encode) = some (as.map view) := by
  induction as generalizing fuel with
  | nil => exact decode_nil fuel
  | cons a as ih =>
      cases fuel with
      | zero => exact absurd enough (by simp)
      | succ fuel =>
          have more : encode a ++ as.flatMap encode ≠ [] := by
            simp [nonempty a List.mem_cons_self]
          rw [List.flatMap_cons, decode_next more (reads a List.mem_cons_self _),
            ih (fun b member => reads b (List.mem_cons_of_mem a member))
              (fun b member => nonempty b (List.mem_cons_of_mem a member))
              (Nat.le_of_succ_le_succ enough)]
          rfl

theorem length_le_flatMap {encode : α → List UInt8} {as : List α}
    (nonempty : ∀ a ∈ as, encode a ≠ []) : as.length ≤ (as.flatMap encode).length := by
  induction as with
  | nil => exact Nat.zero_le _
  | cons a as ih =>
      have first := List.length_pos_iff.2 (nonempty a List.mem_cons_self)
      have others := ih fun b member => nonempty b (List.mem_cons_of_mem a member)
      rw [List.flatMap_cons, List.length_append, List.length_cons]
      omega

/-- **Round trip.**  A reader that undoes the encoding of each record in front of
any rest reads back a concatenation of encodings. -/
theorem decodeAll_flatMap {encode : α → List UInt8} {view : α → ρ} {as : List α}
    (reads : ∀ a ∈ as, ∀ rest, next (encode a ++ rest) = some (view a, rest))
    (nonempty : ∀ a ∈ as, encode a ≠ []) :
    decodeAll next (as.flatMap encode) = some (as.map view) :=
  decode_flatMap reads nonempty (length_le_flatMap nonempty)

theorem decode_length {size : ρ → ℕ}
    (consumes : ∀ input r rest, next input = some (r, rest) → input.length = size r + rest.length)
    {fuel : ℕ} {input : List UInt8} {rs : List ρ} (decoded : decode next fuel input = some rs) :
    input.length = (rs.map size).sum := by
  induction fuel generalizing input rs with
  | zero =>
      cases input with
      | nil => cases decoded; rfl
      | cons b bs => cases decoded
  | succ fuel ih =>
      cases input with
      | nil => cases decoded; rfl
      | cons b bs =>
          rw [decode] at decoded
          cases read : next (b :: bs) with
          | none => rw [read] at decoded; cases decoded
          | some found =>
              rw [read] at decoded
              obtain ⟨others, later, rfl⟩ := Option.map_eq_some_iff.1 decoded
              rw [consumes _ _ _ read, ih later, List.map_cons, List.sum_cons]

/-- The bytes of a file are the sizes of its records. -/
theorem decodeAll_length {size : ρ → ℕ}
    (consumes : ∀ input r rest, next input = some (r, rest) → input.length = size r + rest.length)
    {input : List UInt8} {rs : List ρ} (decoded : decodeAll next input = some rs) :
    input.length = (rs.map size).sum :=
  decode_length consumes decoded

end ExanicCapture.Theory.RecordStream
