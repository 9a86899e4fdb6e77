/-
# Handle.Library -- handles and the buffers acquired through them

The library keeps a list of its handles, each with a count of references.  Acquiring a
handle for a device that is in the list, or a receive or transmit buffer of a handle,
adds a reference; releasing any of them takes one away, and the last one closes the
device.  The count is an `int`; a program that has fewer than 2^31 - 1 references to a
handle does not wrap it (`Lib.Room`).

`Lib` is what one process has got from the library.  Besides the list it has the
buffers the program holds, and books that the code does not keep: the references of the
program, those that were lost in a failed call, and the resources that were lost.  A
resource is lost when nobody is left who would give it back, and also when the driver
refuses to take it: the results of the calls that free buffers are not looked at.
`munmap`, `close` and `free` succeed.
-/
import ExanicCapture.Capture.Path
import ExanicCapture.Handle.Device
import Mathlib.Tactic.Abel

namespace ExanicCapture.Handle

set_option autoImplicit false

open Theory Custody Capture

/-! ## The list of handles -/

/-- `exanic_t`; `device` is the name it was opened under. -/
structure Exanic where
  id : ℕ
  name : CStr
  device : CStr
  refCount : Int32
  pointers : Finset Region

/-- `strncmp(e->name, device_name, sizeof(e->name)) == 0`. -/
def Exanic.isFor (deviceName : CStr) (e : Exanic) : Bool := e.name.take 16 = deviceName.take 16

/-- The handles whose names are compared. -/
def visited (list : List Exanic) (deviceName : CStr) : Effects :=
  (list.takeWhile (!·.isFor deviceName) ++ (list.find? (·.isFor deviceName)).toList).map
    fun e => .use (.exanic e.id)

/-- `exanic_retain_handle`. -/
def retain (list : List Exanic) (h : ℕ) : List Exanic :=
  list.map fun e => if e.id = h then { e with refCount := e.refCount + 1 } else e

/-- `exanic_release_handle`. -/
def release (list : List Exanic) (h : ℕ) : List Exanic × Effects :=
  match list.find? (·.id = h) with
  | none => (list, [.use (.exanic h)])
  | some exanic =>
      if exanic.refCount - 1 > 0 then
        (list.map fun e => if e.id = h then { e with refCount := e.refCount - 1 } else e,
          [.use (.exanic h)])
      else (list.eraseP (·.id = h), closeDevice h exanic.pointers)

/-! ## Buffers -/

/-- `exanic_rx_t`. -/
structure Rx where
  id : ℕ
  exanic : ℕ
  bufferNumber : ℕ
deriving DecidableEq

/-- `exanic_tx_t`. -/
structure Tx where
  id : ℕ
  exanic : ℕ
deriving DecidableEq

/-- What a process has. -/
structure Lib where
  list : List Exanic
  rxs : List Rx
  txs : List Tx
  client : Multiset ℕ
  lostRefs : Multiset ℕ
  lost : Multiset Resource
  next : ℕ
  effects : Effects

def Lib.empty : Lib := ⟨[], [], [], 0, 0, 0, 0, []⟩

/-- One entry for each reference. -/
def Lib.refs (lib : Lib) : Multiset ℕ :=
  lib.client + (lib.rxs.map Rx.exanic : Multiset ℕ) + (lib.txs.map Tx.exanic : Multiset ℕ) +
    lib.lostRefs

namespace Lib

variable (lib : Lib)

/-- `exanic_acquire_handle`. -/
def acquireHandle (deviceName : CStr) (c : DeviceCalls) : Lib :=
  match lib.list.find? (·.isFor deviceName) with
  | some e =>
      { lib with
        list := retain lib.list e.id
        client := e.id ::ₘ lib.client
        effects := lib.effects ++ visited lib.list deviceName }
  | none =>
      match openDevice c lib.next with
      | .error es =>
          { lib with
            lost := lib.lost + c.lost lib.next
            next := lib.next + 1
            effects := lib.effects ++ (visited lib.list deviceName ++ es) }
      | .ok o =>
          { lib with
            list := ⟨lib.next, fit 16 deviceName, deviceName, 1, o.pointers⟩ :: lib.list
            client := lib.next ::ₘ lib.client
            next := lib.next + 1
            effects := lib.effects ++ (visited lib.list deviceName ++ o.effects) }

/-- `exanic_retain_handle`, by the program. -/
def retainHandle (h : ℕ) : Lib :=
  { lib with
    list := retain lib.list h
    client := h ::ₘ lib.client
    effects := lib.effects ++ [.use (.exanic h)] }

/-- `exanic_release_handle`, by the program. -/
def releaseHandle (h : ℕ) : Lib :=
  { lib with
    list := (release lib.list h).1
    client := lib.client.erase h
    effects := lib.effects ++ (release lib.list h).2 }

/-- What the system says while a receive buffer is acquired. -/
structure RxCalls where
  portUsable : Bool
  bufferNumber : ℕ
  alloc : Bool
  mmap : Bool
  malloc : Bool

/-- The filter buffer, if it is one that has to be allocated. -/
def filterBuffer (x bufferNumber : ℕ) : Multiset Resource :=
  if bufferNumber > 0 then {.filterBuffer x} else 0

/-- `exanic_acquire_rx_buffer`, and `exanic_acquire_unused_filter_buffer` with the
number the driver has chosen. -/
def acquireRxBuffer (h : ℕ) (c : RxCalls) : Lib :=
  let x := lib.next
  let allocation : Effects :=
    if c.bufferNumber > 0 then [.use (.fd h), .acquire (.filterBuffer x)] else []
  if !c.portUsable then { lib with effects := lib.effects ++ [.use (.exanic h)] }
  else if c.bufferNumber > 0 && !c.alloc then
    { lib with effects := lib.effects ++ [.use (.exanic h), .use (.fd h)] }
  else if !c.mmap then
    -- the filter buffer is not given back
    { lib with
      lost := lib.lost + filterBuffer x c.bufferNumber
      next := x + 1
      effects := lib.effects ++ .use (.exanic h) :: (allocation ++ [.use (.fd h)]) }
  else if !c.malloc then
    { lib with
      list := retain lib.list h
      lostRefs := h ::ₘ lib.lostRefs
      lost := lib.lost + (filterBuffer x c.bufferNumber + {.ring x})
      next := x + 1
      effects := lib.effects ++
        .use (.exanic h) :: (allocation ++ [.use (.fd h), .acquire (.ring x)]) }
  else
    { lib with
      list := retain lib.list h
      rxs := ⟨x, h, c.bufferNumber⟩ :: lib.rxs
      next := x + 1
      effects := lib.effects ++ .use (.exanic h) ::
        (allocation ++ [.use (.fd h), .acquire (.ring x), .acquire (.rx x), .use (.ring x)]) }

/-- `exanic_release_rx_buffer`; the driver takes the filter buffer back if `freed`. -/
def releaseRxBuffer (rx : Rx) (freed : Bool) : Lib :=
  let deallocation : Effects :=
    if rx.bufferNumber > 0 then
      [.use (.exanic rx.exanic), .use (.fd rx.exanic)] ++ tryRelease freed (.filterBuffer rx.id)
    else []
  { lib with
    list := (release lib.list rx.exanic).1
    rxs := lib.rxs.erase rx
    lost := lib.lost + if rx.bufferNumber > 0 then refused freed (.filterBuffer rx.id) else 0
    effects := lib.effects ++ .use (.rx rx.id) :: .release (.ring rx.id) ::
      (deallocation ++ ((release lib.list rx.exanic).2 ++ [.release (.rx rx.id)])) }

/-- What the driver says when it is given a transmit buffer and its slot back. -/
structure TxFrees where
  buffer : Bool
  feedbackSlot : Bool

/-- What the system says while a transmit buffer is acquired. -/
structure TxCalls where
  portUsable : Bool
  sizeAligned : Bool
  malloc : Bool
  allocBuffer : Bool
  allocFeedback : Bool
  calloc : Bool
  frees : TxFrees

/-- `exanic_acquire_tx_buffer`. -/
def acquireTxBuffer (h : ℕ) (c : TxCalls) : Lib :=
  let t := lib.next
  if !c.portUsable || !c.sizeAligned || !c.malloc then
    { lib with effects := lib.effects ++ [.use (.exanic h)] }
  else if !c.allocBuffer then
    { lib with
      next := t + 1
      effects := lib.effects ++
        [.use (.exanic h), .acquire (.tx t), .use (.fd h), .release (.tx t)] }
  else if !c.allocFeedback then
    { lib with
      lost := lib.lost + refused c.frees.buffer (.txBuffer t)
      next := t + 1
      effects := lib.effects ++ ([.use (.exanic h), .acquire (.tx t), .use (.fd h),
          .acquire (.txBuffer t), .use (.fd h), .use (.fd h)] ++
        (tryRelease c.frees.buffer (.txBuffer t) ++ [.release (.tx t)])) }
  else if !c.calloc then
    -- the reference is not given back
    { lib with
      list := retain lib.list h
      lostRefs := h ::ₘ lib.lostRefs
      lost := lib.lost + (refused c.frees.feedbackSlot (.feedbackSlot t) +
        refused c.frees.buffer (.txBuffer t))
      next := t + 1
      effects := lib.effects ++ ([.use (.exanic h), .acquire (.tx t), .use (.fd h),
          .acquire (.txBuffer t), .use (.fd h), .acquire (.feedbackSlot t), .use (.fd h)] ++
        (tryRelease c.frees.feedbackSlot (.feedbackSlot t) ++ .use (.fd h) ::
          (tryRelease c.frees.buffer (.txBuffer t) ++ [.release (.tx t)]))) }
  else
    { lib with
      list := retain lib.list h
      txs := ⟨t, h⟩ :: lib.txs
      next := t + 1
      effects := lib.effects ++
        [.use (.exanic h), .acquire (.tx t), .use (.fd h), .acquire (.txBuffer t), .use (.fd h),
          .acquire (.feedbackSlot t), .acquire (.offsets t), .use (.map h .feedback)] }

/-- `exanic_release_tx_buffer`. -/
def releaseTxBuffer (tx : Tx) (frees : TxFrees) : Lib :=
  { lib with
    list := (release lib.list tx.exanic).1
    txs := lib.txs.erase tx
    lost := lib.lost + (refused frees.buffer (.txBuffer tx.id) +
      refused frees.feedbackSlot (.feedbackSlot tx.id))
    effects := lib.effects ++
      ([.use (.tx tx.id), .use (.exanic tx.exanic), .use (.fd tx.exanic)] ++
        (tryRelease frees.buffer (.txBuffer tx.id) ++ .use (.fd tx.exanic) ::
          (tryRelease frees.feedbackSlot (.feedbackSlot tx.id) ++
            ((release lib.list tx.exanic).2 ++
              [.release (.offsets tx.id), .release (.tx tx.id)])))) }

end Lib

/-! ## Programs -/

inductive Op where
  | acquireHandle (deviceName : CStr) (c : DeviceCalls)
  | retainHandle (h : ℕ)
  | releaseHandle (h : ℕ)
  | acquireRxBuffer (h : ℕ) (c : Lib.RxCalls)
  | releaseRxBuffer (rx : Rx) (freed : Bool)
  | acquireTxBuffer (h : ℕ) (c : Lib.TxCalls)
  | releaseTxBuffer (tx : Tx) (frees : Lib.TxFrees)

def Lib.op (lib : Lib) : Op → Lib
  | .acquireHandle deviceName c => lib.acquireHandle deviceName c
  | .retainHandle h => lib.retainHandle h
  | .releaseHandle h => lib.releaseHandle h
  | .acquireRxBuffer h c => lib.acquireRxBuffer h c
  | .releaseRxBuffer rx freed => lib.releaseRxBuffer rx freed
  | .acquireTxBuffer h c => lib.acquireTxBuffer h c
  | .releaseTxBuffer tx frees => lib.releaseTxBuffer tx frees

/-- One more reference to the handle can be counted. -/
def Lib.Room (lib : Lib) (h : ℕ) : Prop := lib.refs.count h < 2 ^ 31 - 1

instance (lib : Lib) (h : ℕ) : Decidable (lib.Room h) :=
  inferInstanceAs (Decidable (lib.refs.count h < 2 ^ 31 - 1))

/-- The program uses what it has: a handle it has a reference to, a buffer it has not
released; it has fewer references to a handle than can be counted; and the driver has no
transmit buffers on a card that maps none. -/
def Op.Fits (lib : Lib) : Op → Prop
  | acquireHandle deviceName _ => ∀ e ∈ lib.list.find? (·.isFor deviceName), lib.Room e.id
  | retainHandle h => h ∈ lib.client ∧ lib.Room h
  | releaseHandle h => h ∈ lib.client
  | acquireRxBuffer h _ => h ∈ lib.client ∧ lib.Room h
  | releaseRxBuffer rx _ => rx ∈ lib.rxs
  | acquireTxBuffer h c => h ∈ lib.client ∧ lib.Room h ∧
      (c.allocBuffer = true → ∀ e ∈ lib.list, e.id = h → .feedback ∈ e.pointers)
  | releaseTxBuffer tx _ => tx ∈ lib.txs

instance (lib : Lib) : (op : Op) → Decidable (op.Fits lib)
  | .acquireHandle deviceName _ =>
      inferInstanceAs (Decidable (∀ e ∈ lib.list.find? (·.isFor deviceName), lib.Room e.id))
  | .retainHandle h => inferInstanceAs (Decidable (h ∈ lib.client ∧ lib.Room h))
  | .releaseHandle h => inferInstanceAs (Decidable (h ∈ lib.client))
  | .acquireRxBuffer h _ => inferInstanceAs (Decidable (h ∈ lib.client ∧ lib.Room h))
  | .releaseRxBuffer rx _ => inferInstanceAs (Decidable (rx ∈ lib.rxs))
  | .acquireTxBuffer h c => inferInstanceAs (Decidable (h ∈ lib.client ∧ lib.Room h ∧
      (c.allocBuffer = true → ∀ e ∈ lib.list, e.id = h → .feedback ∈ e.pointers)))
  | .releaseTxBuffer tx _ => inferInstanceAs (Decidable (tx ∈ lib.txs))

/-- Programs that use the library, in any order. -/
inductive Run : List Op → Lib → Prop where
  | nil : Run [] Lib.empty
  | snoc {ops : List Op} {lib : Lib} {op : Op} (before : Run ops lib) (fits : op.Fits lib) :
      Run (ops ++ [op]) (lib.op op)

/-- Every operation of the list fits, one after the other. -/
def Lib.Follows (lib : Lib) : List Op → Prop
  | [] => True
  | op :: ops => op.Fits lib ∧ (lib.op op).Follows ops

instance decidableFollows : (lib : Lib) → (ops : List Op) → Decidable (lib.Follows ops)
  | _, [] => inferInstanceAs (Decidable True)
  | lib, op :: ops =>
      have := decidableFollows (lib.op op) ops
      inferInstanceAs (Decidable (op.Fits lib ∧ (lib.op op).Follows ops))

theorem Run.follow {before ops : List Op} {lib : Lib} (run : Run before lib)
    (follows : lib.Follows ops) : Run (before ++ ops) (ops.foldl Lib.op lib) := by
  induction ops generalizing before lib with
  | nil => rwa [List.append_nil]
  | cons op ops ih =>
      have rest := ih (run.snoc follows.1) follows.2
      rwa [List.append_assoc] at rest

end ExanicCapture.Handle
