/-
# Theory.ByteOrder -- unsigned integers as bytes in memory

`bytes order w n` is how a machine of byte order `order` stores the `w`-byte
unsigned integer `n`, and `value` is what it loads back.  Storing and loading are
inverse to each other on `w` bytes (`value_bytes`, `bytes_value`).  A conversion
such as `htons` is `recode`: the integer a machine has to store so that the bytes
come out in another order (`bytes_recode`).

`take` and `readUInt` consume an input from the front; they are what a reader of a
binary format is made of.
-/
import Mathlib.Data.Nat.Digits.Defs
import Mathlib.Tactic.Ring

namespace ExanicCapture.Theory

set_option autoImplicit false

inductive ByteOrder where
  | little
  | big
deriving DecidableEq

namespace ByteOrder

/-- The low `w` bytes of `n`, the least significant one first. -/
def littleBytes : ℕ → ℕ → List UInt8
  | 0, _ => []
  | w + 1, n => UInt8.ofNat n :: littleBytes w (n / 256)

def littleValue (bs : List UInt8) : ℕ :=
  Nat.ofDigits 256 (bs.map UInt8.toNat)

/-- How the `w`-byte integer `n` lies in memory. -/
def bytes : ByteOrder → ℕ → ℕ → List UInt8
  | little, w, n => littleBytes w n
  | big, w, n => (littleBytes w n).reverse

/-- The integer these bytes stand for. -/
def value : ByteOrder → List UInt8 → ℕ
  | little, bs => littleValue bs
  | big, bs => littleValue bs.reverse

theorem littleBytes_length (w n : ℕ) : (littleBytes w n).length = w := by
  induction w generalizing n with
  | zero => rfl
  | succ w ih => rw [littleBytes, List.length_cons, ih]

theorem littleValue_cons (b : UInt8) (bs : List UInt8) :
    littleValue (b :: bs) = b.toNat + 256 * littleValue bs := by
  rw [littleValue, List.map_cons, Nat.ofDigits_cons]
  rfl

theorem littleValue_littleBytes (w n : ℕ) : littleValue (littleBytes w n) = n % 256 ^ w := by
  induction w generalizing n with
  | zero => rw [pow_zero, Nat.mod_one]; rfl
  | succ w ih =>
      rw [littleBytes, littleValue_cons, ih, pow_succ', Nat.mod_mul]
      rfl

theorem littleBytes_littleValue (bs : List UInt8) :
    littleBytes bs.length (littleValue bs) = bs := by
  induction bs with
  | nil => rfl
  | cons b bs ih =>
      have low : UInt8.ofNat (littleValue (b :: bs)) = b := by
        rw [← UInt8.toNat_inj, littleValue_cons, UInt8.toNat_ofNat']
        have := b.toNat_lt
        omega
      have high : littleValue (b :: bs) / 256 = littleValue bs := by
        rw [littleValue_cons]
        have := b.toNat_lt
        omega
      rw [List.length_cons, littleBytes, low, high, ih]

@[simp] theorem bytes_length (order : ByteOrder) (w n : ℕ) : (order.bytes w n).length = w := by
  cases order with
  | little => exact littleBytes_length w n
  | big => exact (List.length_reverse).trans (littleBytes_length w n)

theorem value_bytes (order : ByteOrder) (w n : ℕ) : order.value (order.bytes w n) = n % 256 ^ w := by
  cases order with
  | little => exact littleValue_littleBytes w n
  | big => rw [value, bytes, List.reverse_reverse, littleValue_littleBytes]

theorem bytes_value (order : ByteOrder) {bs : List UInt8} {w : ℕ} (length : bs.length = w) :
    order.bytes w (order.value bs) = bs := by
  subst length
  cases order with
  | little => exact littleBytes_littleValue bs
  | big =>
      have whole := littleBytes_littleValue bs.reverse
      rw [List.length_reverse] at whole
      rw [bytes, value, whole, List.reverse_reverse]

theorem value_lt (order : ByteOrder) {bs : List UInt8} {w : ℕ} (length : bs.length = w) :
    order.value bs < 256 ^ w := by
  have stored := order.value_bytes w (order.value bs)
  rw [order.bytes_value length] at stored
  exact stored ▸ Nat.mod_lt _ (pow_pos (by decide) w)

/-- Two halves in little-endian order. -/
theorem little_value_append (low high : List UInt8) :
    little.value (low ++ high) = little.value low + 256 ^ low.length * little.value high := by
  simp only [value, littleValue, List.map_append, Nat.ofDigits_append, List.length_map]

/-- The integer which a machine of order `host` stores as the bytes of `n` in order
`target`. -/
def recode (host target : ByteOrder) (w n : ℕ) : ℕ :=
  host.value (target.bytes w n)

theorem bytes_recode (host target : ByteOrder) (w n : ℕ) :
    host.bytes w (recode host target w n) = target.bytes w n :=
  bytes_value host (target.bytes_length w n)

theorem recode_lt (host target : ByteOrder) (w n : ℕ) : recode host target w n < 256 ^ w :=
  host.value_lt (target.bytes_length w n)

theorem recode_inj {host target : ByteOrder} {w m n : ℕ} (below : m < 256 ^ w)
    (below' : n < 256 ^ w) (same : recode host target w m = recode host target w n) : m = n := by
  have stored := congrArg (fun k => target.value (host.bytes w k)) same
  simp only [bytes_recode, value_bytes, Nat.mod_eq_of_lt below, Nat.mod_eq_of_lt below'] at stored
  exact stored

/-- Zero is zero in every order. -/
theorem recode_zero (host target : ByteOrder) (w : ℕ) : recode host target w 0 = 0 := by
  have zeros : littleBytes w 0 = List.replicate w 0 := by
    induction w with
    | zero => rfl
    | succ w ih => rw [littleBytes, Nat.zero_div, ih]; rfl
  have same : target.bytes w 0 = host.bytes w 0 := by
    cases host <;> cases target <;> simp [bytes, zeros]
  rw [recode, same, value_bytes, Nat.zero_mod]

end ByteOrder

/-! ## Reading from the front of an input -/

/-- The next `n` bytes, and what follows. -/
def take (n : ℕ) (input : List UInt8) : Option (List UInt8 × List UInt8) :=
  if n ≤ input.length then some (input.take n, input.drop n) else none

/-- The next `w`-byte integer, and what follows. -/
def readUInt (order : ByteOrder) (w : ℕ) (input : List UInt8) : Option (ℕ × List UInt8) :=
  (take w input).map fun (field, rest) => (order.value field, rest)

theorem take_append {n : ℕ} {block : List UInt8} (length : block.length = n)
    (rest : List UInt8) : take n (block ++ rest) = some (block, rest) := by
  subst length
  simp [take]

theorem take_length {n : ℕ} {input block rest : List UInt8}
    (taken : take n input = some (block, rest)) :
    block.length = n ∧ input.length = n + rest.length := by
  unfold take at taken
  split at taken
  · rename_i enough
    cases taken
    refine ⟨List.length_take_of_le enough, ?_⟩
    rw [List.length_drop, Nat.add_sub_cancel' enough]
  · cases taken

theorem readUInt_bytes (order : ByteOrder) (w n : ℕ) (rest : List UInt8) :
    readUInt order w (order.bytes w n ++ rest) = some (n % 256 ^ w, rest) := by
  rw [readUInt, take_append (order.bytes_length w n)]
  exact congrArg (fun v => some (v, rest)) (order.value_bytes w n)

theorem readUInt_uint8 (order : ByteOrder) (n : UInt8) (rest : List UInt8) :
    readUInt order 1 ([n] ++ rest) = some (n.toNat, rest) := by
  have value : order.value [n] = n.toNat := by
    cases order <;> simp [ByteOrder.value, ByteOrder.littleValue]
  rw [readUInt, take_append (show [n].length = 1 from rfl), Option.map_some]
  exact congrArg (fun v => some (v, rest)) value

theorem readUInt_uint32 (order : ByteOrder) (n : UInt32) (rest : List UInt8) :
    readUInt order 4 (order.bytes 4 n.toNat ++ rest) = some (n.toNat, rest) := by
  rw [readUInt_bytes, Nat.mod_eq_of_lt (show n.toNat < 256 ^ 4 from n.toNat_lt)]

theorem readUInt_uint16 (order : ByteOrder) (n : UInt16) (rest : List UInt8) :
    readUInt order 2 (order.bytes 2 n.toNat ++ rest) = some (n.toNat, rest) := by
  rw [readUInt_bytes, Nat.mod_eq_of_lt (show n.toNat < 256 ^ 2 from n.toNat_lt)]

/-- Two 32-bit halves, the low one first, read as one integer. -/
theorem readUInt_halves (low high : UInt32) (rest : List UInt8) :
    readUInt .little 8
        (ByteOrder.little.bytes 4 low.toNat ++ (ByteOrder.little.bytes 4 high.toNat ++ rest)) =
      some (low.toNat + 2 ^ 32 * high.toNat, rest) := by
  have length : (ByteOrder.little.bytes 4 low.toNat ++
      ByteOrder.little.bytes 4 high.toNat).length = 8 := by simp
  rw [← List.append_assoc, readUInt, take_append length, Option.map_some]
  refine congrArg (fun v => some (v, rest)) ?_
  rw [ByteOrder.little_value_append, ByteOrder.value_bytes, ByteOrder.value_bytes,
    ByteOrder.bytes_length, Nat.mod_eq_of_lt (show low.toNat < 256 ^ 4 from low.toNat_lt),
    Nat.mod_eq_of_lt (show high.toNat < 256 ^ 4 from high.toNat_lt)]
  rfl

theorem readUInt_length {order : ByteOrder} {w n : ℕ} {input rest : List UInt8}
    (taken : readUInt order w input = some (n, rest)) : input.length = w + rest.length := by
  unfold readUInt at taken
  obtain ⟨⟨field, rest'⟩, found, same⟩ := Option.map_eq_some_iff.1 taken
  cases same
  exact (take_length found).2

end ExanicCapture.Theory
