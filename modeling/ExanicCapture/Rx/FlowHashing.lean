/-
# Rx.FlowHashing -- how many buffers the card hashes into (`fifo_rx.c`)

`exanic_enable_flow_hashing` asks the driver for receive buffers until one is refused,
gives the last ones back until a power of two is left, and has the card put a frame into
the buffer that the hash of its flow names under a mask.

`FlowHashing` is what the call is worth: it keeps the largest power of two, and the hashes
name exactly the buffers that it keeps (`Hashed.named_iff`).  If it fails, it keeps none.
-/
import ExanicCapture.Capture.Path
import ExanicCapture.Theory.Estate
import Mathlib.Algebra.Order.Ring.Nat
import Mathlib.Data.Multiset.Range

namespace ExanicCapture.Rx

set_option autoImplicit false

open Theory Custody Capture

/-! ## The code -/

/-- The calls of the driver about the buffers of a port.  `granted` is its answer. -/
inductive HashCall where
  | alloc (bufferNumber : ℕ) (granted : Bool)
  | free (bufferNumber : ℕ)
  | configure (enable : Bool) (mask function : UInt32)
deriving DecidableEq

def HashCall.effects : HashCall → List (Effect ℕ)
  | .alloc bufferNumber granted => if granted then [.acquire bufferNumber] else []
  | .free bufferNumber => [.release bufferNumber]
  | .configure _ _ _ => []

inductive HashError where
  | maxBuffers
  | portNumber
  | noRx
  | notEnabled
  | noBuffers
deriving DecidableEq

def HashError.text : HashError → CStr
  | .maxBuffers => "max buffers must be a power of 2".toList
  | .portNumber => "invalid port number".toList
  | .noRx => "port does not support RX".toList
  | .notEnabled => "port is not enabled".toList
  | .noBuffers => "couldn't allocate any buffers".toList

/-- The port, and what the library says about it. -/
structure HashPort where
  portNumber : Int32
  numPorts : UInt32
  rxUsable : Bool
  enabled : Bool

/-- Attempt to allocate `left` more buffers. -/
def allocate (grants : ℕ → Bool) : ℕ → ℕ → ℕ × List HashCall
  | 0, numBuffers => (numBuffers, [])
  | left + 1, numBuffers =>
      if grants numBuffers then
        let rest := allocate grants left (numBuffers + 1)
        (rest.1, .alloc numBuffers true :: rest.2)
      else (numBuffers, [.alloc numBuffers false])

/-- Roll back to the nearest power of two. -/
def rollBack : ℕ → ℕ × List HashCall
  | 0 => (0, [])
  | n + 1 =>
      if n + 1 ≠ 1 ∧ (n + 1) &&& n ≠ 0 then
        let rest := rollBack n
        (rest.1, .free n :: rest.2)
      else (n + 1, [])

/-- `exanic_enable_flow_hashing`: what it returns, and the calls of the driver.  The answers
to the last two kinds of calls are not looked at. -/
def exanicEnableFlowHashing (port : HashPort) (maxBuffers hashFunction : Int32)
    (grants : ℕ → Bool) : Except HashError ℕ × List HashCall :=
  -- for INT_MIN the source's subtraction overflows; here it wraps, and no buffer is asked for
  if maxBuffers ≠ 1 ∧ maxBuffers &&& (maxBuffers - 1) ≠ 0 then (.error .maxBuffers, [])
  -- the second comparison is an unsigned one
  else if port.portNumber < 0 ∨ port.numPorts ≤ port.portNumber.toUInt32 then
    (.error .portNumber, [])
  else if !port.rxUsable then (.error .noRx, [])
  else if !port.enabled then (.error .notEnabled, [])
  else
    let allocated := allocate grants maxBuffers.toInt.toNat 0
    if allocated.1 = 0 then (.error .noBuffers, allocated.2)
    else
      let kept := rollBack allocated.1
      (.ok kept.1, allocated.2 ++ kept.2 ++
        [.configure true (.ofNat (kept.1 - 1)) hashFunction.toUInt32])

/-! ## The two loops -/

section Loops

variable {grants : ℕ → Bool} {left n : ℕ}

/-- What the first loop leaves, when it starts with `n` buffers and may get `left` more. -/
structure Allocated (grants : ℕ → Bool) (left n : ℕ) (r : ℕ × List HashCall) : Prop where
  from_le : n ≤ r.1
  le_max : r.1 ≤ n + left
  granted : ∀ k, n ≤ k → k < r.1 → grants k = true
  stops : r.1 < n + left → grants r.1 = false
  goes : Goes (Multiset.range n) (r.2.flatMap HashCall.effects) (Multiset.range r.1)
  allocs : ∀ call ∈ r.2, ∃ k granted, call = .alloc k granted

/-- No buffer was granted. -/
theorem Allocated.none {calls : List HashCall} (idle : calls.flatMap HashCall.effects = [])
    (allocs : ∀ call ∈ calls, ∃ k granted, call = .alloc k granted)
    (stops : n < n + left → grants n = false) : Allocated grants left n (n, calls) := by
  refine ⟨le_rfl, Nat.le_add_right n left, ?_, stops, idle ▸ .nil _, allocs⟩
  intro k low high
  exact absurd high (Nat.not_lt.2 low)

theorem allocated (grants : ℕ → Bool) (left n : ℕ) :
    Allocated grants left n (allocate grants left n) := by
  induction left generalizing n with
  | zero =>
      refine .none rfl ?_ fun short => absurd short (Nat.lt_irrefl n)
      intro call member
      cases member
  | succ left ih =>
      rw [allocate]
      split
      next given =>
        have rest := ih (n + 1)
        have low := rest.from_le
        have high := rest.le_max
        refine ⟨Nat.le_of_succ_le low, high.trans (by omega), ?_, ?_, ?_, ?_⟩
        · intro k start stop
          rcases Nat.eq_or_lt_of_le start with rfl | later
          · exact given
          · exact rest.granted k later stop
        · intro short
          have short : (allocate grants left (n + 1)).1 < n + (left + 1) := short
          exact rest.stops (by omega)
        · refine .acquire Multiset.notMem_range_self ?_
          rw [← Multiset.range_succ]
          exact rest.goes
        · intro call member
          rcases List.mem_cons.1 member with rfl | later
          · exact ⟨n, true, rfl⟩
          · exact rest.allocs call later
      next refused =>
        refine .none rfl ?_ fun _ => Bool.eq_false_iff.2 refused
        intro call member
        obtain rfl := List.mem_singleton.1 member
        exact ⟨n, false, rfl⟩

/-- What the second loop leaves of `n` buffers. -/
structure RolledBack (n : ℕ) (r : ℕ × List HashCall) : Prop where
  power : r.1.isPowerOfTwo
  le : r.1 ≤ n
  most : ∀ m : ℕ, m.isPowerOfTwo → m ≤ n → m ≤ r.1
  goes : Goes (Multiset.range n) (r.2.flatMap HashCall.effects) (Multiset.range r.1)

theorem rolledBack (nonzero : n ≠ 0) : RolledBack n (rollBack n) := by
  induction n with
  | zero => exact absurd rfl nonzero
  | succ n ih =>
      have test : ((n + 1) &&& n = 0) ↔ (n + 1).isPowerOfTwo :=
        Nat.and_sub_one_eq_zero_iff_isPowerOfTwo nonzero
      rw [rollBack]
      split
      next again =>
        have rest := ih (by omega)
        refine ⟨rest.power, Nat.le_succ_of_le rest.le, ?_, ?_⟩
        · intro m power inside
          -- the number that was given back is not a power of two
          have other : m ≠ n + 1 := fun same => again.2 (test.2 (same ▸ power))
          exact rest.most m power (by omega)
        · rw [Multiset.range_succ]
          exact .release rest.goes
      next done =>
        refine ⟨?_, le_rfl, fun m _ inside => inside, .nil _⟩
        by_cases one : n + 1 = 1
        · exact ⟨0, one⟩
        · refine test.1 ?_
          by_contra bits
          exact done ⟨one, bits⟩

end Loops

/-! ## The mask -/

theorem toNat_pred {x : BitVec 32} (nonzero : x.toNat ≠ 0) : (x - 1).toNat = x.toNat - 1 := by
  have small := x.isLt
  rw [BitVec.toNat_sub]
  show (2 ^ 32 - 1 + x.toNat) % 2 ^ 32 = x.toNat - 1
  omega

/-- A positive count of buffers passes the first check exactly if it is a power of two. -/
theorem maxBuffers_power {maxBuffers : Int32} (positive : 0 < maxBuffers.toInt) :
    ¬ (maxBuffers ≠ 1 ∧ maxBuffers &&& (maxBuffers - 1) ≠ 0) ↔
      maxBuffers.toInt.toNat.isPowerOfTwo := by
  have same : maxBuffers.toInt.toNat = maxBuffers.toBitVec.toNat := by
    have whole : maxBuffers.toInt = maxBuffers.toBitVec.toInt := rfl
    have cond := BitVec.toInt_eq_toNat_cond maxBuffers.toBitVec
    have small := maxBuffers.toBitVec.isLt
    split at cond <;> omega
  have nonzero : maxBuffers.toBitVec.toNat ≠ 0 := by omega
  have bits : maxBuffers &&& (maxBuffers - 1) = 0 ↔ maxBuffers.toInt.toNat.isPowerOfTwo := by
    rw [← Int32.toBitVec_inj, ← BitVec.toNat_inj, Int32.toBitVec_and, BitVec.toNat_and,
      Int32.toBitVec_sub, same, ← Nat.and_sub_one_eq_zero_iff_isPowerOfTwo nonzero,
      ← toNat_pred nonzero]
    rfl
  rw [not_and_or, not_not, not_not, bits]
  refine or_iff_right_of_imp fun one => ?_
  subst one
  exact ⟨0, rfl⟩

/-- The numbers that the mask of a power of two leaves of 32 bits. -/
theorem masked_iff {n : ℕ} (power : n.isPowerOfTwo) (small : n < 2 ^ 32) (k : ℕ) :
    (∃ hash : UInt32, (hash &&& .ofNat (n - 1)).toNat = k) ↔ k < n := by
  obtain ⟨j, rfl⟩ := power
  have positive := Nat.two_pow_pos j
  have masked (hash : UInt32) : (hash &&& .ofNat (2 ^ j - 1)).toNat = hash.toNat % 2 ^ j := by
    rw [UInt32.toNat_and, UInt32.toNat_ofNat', Nat.mod_eq_of_lt (by omega),
      Nat.and_two_pow_sub_one_eq_mod]
  constructor
  · rintro ⟨hash, rfl⟩
    rw [masked]
    exact Nat.mod_lt _ positive
  · intro inside
    have word : k < 2 ^ 32 := inside.trans small
    refine ⟨.ofNat k, ?_⟩
    rw [masked, UInt32.toNat_ofNat', Nat.mod_eq_of_lt word, Nat.mod_eq_of_lt inside]
/-! ## The call -/

/-- The port can receive. -/
structure HashPort.Usable (port : HashPort) : Prop where
  inside : ¬ (port.portNumber < 0 ∨ port.numPorts ≤ port.portNumber.toUInt32)
  rx : port.rxUsable = true
  enabled : port.enabled = true

/-- What a call that succeeds has done. -/
structure Hashed (grants : ℕ → Bool) (maxBuffers n : ℕ) (hashFunction : UInt32)
    (calls : List HashCall) : Prop where
  power : n.isPowerOfTwo
  granted : ∀ k < n, grants k = true
  most : ∀ m : ℕ, m.isPowerOfTwo → m ≤ maxBuffers → (∀ k < m, grants k = true) → m ≤ n
  keeps : Goes 0 (calls.flatMap HashCall.effects) (Multiset.range n)
  named_iff : ∃ mask, calls.getLast? = some (.configure true mask hashFunction) ∧
    ∀ k, (∃ hash : UInt32, (hash &&& mask).toNat = k) ↔ k < n

/-- What a call that fails has done: nothing is left, and the card was not told. -/
structure Unhashed (calls : List HashCall) : Prop where
  keeps : Goes 0 (calls.flatMap HashCall.effects) 0
  allocs : ∀ call ∈ calls, ∃ k granted, call = .alloc k granted

theorem Unhashed.nothing : Unhashed [] := ⟨.nil 0, fun _ member => by cases member⟩

/-- Both loops, and the call that tells the card. -/
theorem hashed {grants : ℕ → Bool} {maxBuffers : ℕ} (small : maxBuffers < 2 ^ 32)
    (hashFunction : UInt32) (some : (allocate grants maxBuffers 0).1 ≠ 0) :
    Hashed grants maxBuffers (rollBack (allocate grants maxBuffers 0).1).1 hashFunction
      ((allocate grants maxBuffers 0).2 ++ (rollBack (allocate grants maxBuffers 0).1).2 ++
        [.configure true (.ofNat ((rollBack (allocate grants maxBuffers 0).1).1 - 1))
          hashFunction]) := by
  have first := allocated grants maxBuffers 0
  have second := rolledBack some
  have fewer := second.le
  have inside := first.le_max
  refine ⟨second.power, ?_, ?_, ?_, _, List.getLast?_concat, ?_⟩
  · intro k low
    exact first.granted k (Nat.zero_le k) (by omega)
  · intro m power within given
    refine second.most m power ?_
    by_contra beyond
    have refused := first.stops (by omega)
    rw [given _ (by omega)] at refused
    cases refused
  · rw [List.flatMap_append, List.flatMap_append]
    exact (first.goes.append second.goes).append (.nil _)
  · exact masked_iff second.power (by omega)

/-- What `exanic_enable_flow_hashing` answers. -/
structure FlowHashing (port : HashPort) (maxBuffers hashFunction : Int32) (grants : ℕ → Bool)
    (answer : Except HashError ℕ × List HashCall) : Prop where
  succeeds_iff : (∃ n, answer.1 = .ok n) ↔
    port.Usable ∧ maxBuffers.toInt.toNat.isPowerOfTwo ∧ grants 0 = true
  hashed : ∀ n, answer.1 = .ok n →
    Hashed grants maxBuffers.toInt.toNat n hashFunction.toUInt32 answer.2
  unhashed : ∀ e, answer.1 = .error e → Unhashed answer.2

section

variable {port : HashPort} {maxBuffers hashFunction : Int32} {grants : ℕ → Bool}

theorem FlowHashing.error {e : HashError} {calls : List HashCall} (unhashed : Unhashed calls)
    (reason : ¬ (port.Usable ∧ maxBuffers.toInt.toNat.isPowerOfTwo ∧ grants 0 = true)) :
    FlowHashing port maxBuffers hashFunction grants (.error e, calls) := by
  refine ⟨⟨?_, fun good => absurd good reason⟩, ?_, fun _ _ => unhashed⟩
  · rintro ⟨n, succeeded⟩
    cases succeeded
  · intro n succeeded
    cases succeeded

/-- **Flow hashing spreads over the largest power of two of buffers there is**, and over
these only. -/
theorem exanicEnableFlowHashing_answers (port : HashPort) (maxBuffers hashFunction : Int32)
    (grants : ℕ → Bool) :
    FlowHashing port maxBuffers hashFunction grants
      (exanicEnableFlowHashing port maxBuffers hashFunction grants) := by
  have small := maxBuffers.toInt_lt
  have first := allocated grants maxBuffers.toInt.toNat 0
  have inside := first.le_max
  have positive (power : maxBuffers.toInt.toNat.isPowerOfTwo) : 0 < maxBuffers.toInt := by
    have := Nat.pos_of_isPowerOfTwo power
    omega
  unfold exanicEnableFlowHashing
  split
  next odd =>
    exact .error .nothing fun good => (maxBuffers_power (positive good.2.1)).2 good.2.1 odd
  next even =>
    split
    next outside => exact .error .nothing fun good => good.1.inside outside
    next number =>
      split
      next unusable => exact .error .nothing fun good => by simp [good.1.rx] at unusable
      next usable =>
        split
        next disabled => exact .error .nothing fun good => by simp [good.1.enabled] at disabled
        next enabled =>
          dsimp only
          split
          next none =>
            have nothing := first.goes
            rw [none] at nothing
            refine .error ⟨nothing, first.allocs⟩ fun good => ?_
            have refused := first.stops (by have := positive good.2.1; omega)
            rw [none, good.2.2] at refused
            cases refused
          next some =>
            refine ⟨⟨fun _ => ⟨⟨number, by simpa using usable, by simpa using enabled⟩, ?_, ?_⟩,
              fun _ => ⟨_, rfl⟩⟩, ?_, ?_⟩
            · exact (maxBuffers_power (by omega)).1 even
            · exact first.granted 0 le_rfl (Nat.pos_of_ne_zero some)
            · rintro n ⟨⟩
              exact Rx.hashed (by omega) _ some
            · rintro e ⟨⟩

/-- Seven buffers of eight: three are given back. -/
example : (exanicEnableFlowHashing ⟨0, 2, true, true⟩ 8 0 (· < 7)).1 = .ok 4 := rfl

end

end ExanicCapture.Rx
