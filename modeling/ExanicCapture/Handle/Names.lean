/-
# Handle.Names -- one handle for each device

A handle keeps the first 15 characters of the name it was opened under, and a name is
compared with them.  So a name of at most 15 characters has one handle, however often it
is acquired and whatever was released in between.  A longer name never finds the handle
it has opened; and the name cut off does, though it is that of another device
(`shared_exactly`).
-/
import ExanicCapture.Handle.Lifetime
import Mathlib.Data.List.Find

namespace ExanicCapture.Handle

set_option autoImplicit false

open Capture

/-! ## The names that are kept -/

/-- What a handle is known by. -/
structure Label where
  name : CStr
  device : CStr

def Exanic.label (e : Exanic) : Label := ⟨e.name, e.device⟩

def labels (list : List Exanic) : List Label := list.map Exanic.label

/-- A handle that was opened later is not for the name of an earlier one. -/
structure Named (ls : List Label) : Prop where
  kept : ∀ l ∈ ls, l.name = fit 16 l.device
  apart : ls.Pairwise fun new old => old.name.take 16 ≠ new.device.take 16

theorem Named.sublist {ls ls' : List Label} (named : Named ls) (fewer : ls'.Sublist ls) :
    Named ls' :=
  ⟨fun l member => named.kept l (fewer.subset member), named.apart.sublist fewer⟩

theorem labels_retain (list : List Exanic) (h : ℕ) : labels (retain list h) = labels list :=
  map_recount (· + 1) (fun _ => rfl) list h

theorem labels_release (list : List Exanic) (h : ℕ) :
    (labels (release list h).1).Sublist (labels list) := by
  unfold release
  split
  · exact .refl _
  · split
    · have counted := map_recount (f := Exanic.label) (· - 1) (fun _ => rfl) list h
      dsimp only [labels]
      rw [counted]
    · exact List.eraseP_sublist.map _

/-! ## Every operation -/

/-- No operation but the opening of a device adds a name. -/
theorem Lib.labels_op (lib : Lib) (op : Op) :
    (labels (lib.op op).list).Sublist (labels lib.list) ∨
      ∃ deviceName, lib.list.find? (·.isFor deviceName) = none ∧
        labels (lib.op op).list = ⟨fit 16 deviceName, deviceName⟩ :: labels lib.list := by
  cases op with
  | acquireHandle deviceName c =>
      simp only [Lib.op, Lib.acquireHandle]
      split
      next e found =>
        left
        rw [labels_retain]
      next unknown =>
        split
        · exact .inl (.refl _)
        · exact .inr ⟨deviceName, unknown, rfl⟩
  | retainHandle h =>
      left
      simp only [Lib.op, Lib.retainHandle, labels_retain]
      exact .refl _
  | releaseHandle h => exact .inl (labels_release lib.list h)
  | acquireRxBuffer h c =>
      left
      simp only [Lib.op, Lib.acquireRxBuffer]
      split_ifs <;> simp [labels_retain]
  | releaseRxBuffer rx => exact .inl (labels_release lib.list rx.exanic)
  | acquireTxBuffer h c =>
      left
      simp only [Lib.op, Lib.acquireTxBuffer]
      split_ifs <;> simp [labels_retain]
  | releaseTxBuffer tx => exact .inl (labels_release lib.list tx.exanic)

theorem Named.op {lib : Lib} (named : Named (labels lib.list)) (op : Op) :
    Named (labels (lib.op op).list) := by
  rcases lib.labels_op op with fewer | ⟨deviceName, unknown, opened⟩
  · exact named.sublist fewer
  · rw [opened]
    refine ⟨List.forall_mem_cons.2 ⟨rfl, named.kept⟩, List.pairwise_cons.2 ⟨?_, named.apart⟩⟩
    intro l member same
    obtain ⟨e, there, rfl⟩ := List.mem_map.1 member
    have other := List.find?_eq_none.1 unknown e there
    exact other (decide_eq_true same)

/-- The names need nothing of the program. -/
theorem named_afterOps (ops : List Op) : Named (labels (Lib.afterOps ops).list) := by
  induction ops using List.reverseRecOn with
  | nil => exact ⟨fun _ member => absurd member List.not_mem_nil, .nil⟩
  | append_singleton ops op ih =>
      rw [Lib.afterOps_concat]
      exact ih.op op

/-! ## Names and devices -/

/-- The name that is kept is shorter than the comparison. -/
theorem take_fit (s : CStr) : (fit 16 s).take 16 = s.take 15 := by
  rw [fit, List.take_take]
  rfl

theorem take_eq_take_iff (s t : CStr) : s.take 15 = t.take 16 ↔ t = s.take 15 := by
  constructor
  · intro same
    have short := congrArg List.length same
    rw [List.length_take, List.length_take] at short
    rw [same, List.take_of_length_le (by omega)]
  · intro same
    rw [same, List.take_take]
    rfl

theorem Named.isFor_iff {list : List Exanic} (named : Named (labels list)) {e : Exanic}
    (member : e ∈ list) (deviceName : CStr) :
    e.isFor deviceName = true ↔ deviceName = e.device.take 15 := by
  have name : e.name = fit 16 e.device := named.kept _ (List.mem_map_of_mem member)
  rw [Exanic.isFor, decide_eq_true_iff, name, take_fit, take_eq_take_iff]

theorem Named.nodup {ls : List Label} (named : Named ls) :
    ((ls.map Label.device).filter (·.length < 16)).Nodup := by
  rw [List.nodup_iff_pairwise_ne, List.pairwise_filter, List.pairwise_map]
  refine named.apart.imp_of_mem ?_
  intro new old _ there apart short _ same
  rw [named.kept old there, take_fit, ← same, ne_eq, take_eq_take_iff] at apart
  rw [decide_eq_true_iff] at short
  exact apart (List.take_of_length_le (by omega)).symm

theorem Named.find?_eq {list : List Exanic} (named : Named (labels list)) (deviceName : CStr) :
    list.find? (·.isFor deviceName) = list.find? (·.device.take 15 = deviceName) := by
  refine List.find?_congr fun e member => ?_
  rw [Bool.eq_iff_iff, named.isFor_iff member, decide_eq_true_iff, eq_comm]

/-! ## What an acquisition does -/

theorem Lib.acquireHandle_known {lib : Lib} {deviceName : CStr} {e : Exanic}
    (found : lib.list.find? (·.isFor deviceName) = some e) (c : DeviceCalls) :
    (lib.acquireHandle deviceName c).list = retain lib.list e.id ∧
      (lib.acquireHandle deviceName c).client = e.id ::ₘ lib.client := by
  rw [Lib.acquireHandle, found]
  exact ⟨rfl, rfl⟩

theorem Lib.acquireHandle_opened {lib : Lib} {deviceName : CStr} {c : DeviceCalls} {o : Opening}
    (unknown : lib.list.find? (·.isFor deviceName) = none) (opens : openDevice c lib.next = .ok o) :
    (lib.acquireHandle deviceName c).list =
        ⟨lib.next, fit 16 deviceName, deviceName, 1, o.pointers⟩ :: lib.list ∧
      (lib.acquireHandle deviceName c).client = lib.next ::ₘ lib.client := by
  rw [Lib.acquireHandle, unknown]
  dsimp only
  rw [opens]
  exact ⟨rfl, rfl⟩

theorem Lib.acquireHandle_failed {lib : Lib} {deviceName : CStr} {c : DeviceCalls} {es : Effects}
    (unknown : lib.list.find? (·.isFor deviceName) = none) (fails : openDevice c lib.next = .error es) :
    (lib.acquireHandle deviceName c).list = lib.list ∧
      (lib.acquireHandle deviceName c).client = lib.client := by
  rw [Lib.acquireHandle, unknown]
  dsimp only
  rw [fails]
  exact ⟨rfl, rfl⟩

/-- **Names of at most 15 characters have one handle each, and a handle is found by the
first 15 characters of its name**, and by nothing else, after any operations.  An
acquisition takes the newest of the handles that are found, and opens the device if
there is none. -/
theorem shared_exactly (ops : List Op) :
    let lib := Lib.afterOps ops
    ((lib.list.map Exanic.device).filter (·.length < 16)).Nodup ∧
      (∀ e ∈ lib.list, ∀ deviceName : CStr,
        e.isFor deviceName = true ↔ deviceName = e.device.take 15) ∧
      ∀ deviceName c,
        (∀ e, lib.list.find? (·.device.take 15 = deviceName) = some e →
          (lib.acquireHandle deviceName c).list = retain lib.list e.id ∧
            (lib.acquireHandle deviceName c).client = e.id ::ₘ lib.client) ∧
        (lib.list.find? (·.device.take 15 = deviceName) = none →
          (∀ o, openDevice c lib.next = .ok o →
            (lib.acquireHandle deviceName c).list =
                ⟨lib.next, fit 16 deviceName, deviceName, 1, o.pointers⟩ :: lib.list ∧
              (lib.acquireHandle deviceName c).client = lib.next ::ₘ lib.client) ∧
          (∀ es, openDevice c lib.next = .error es →
            (lib.acquireHandle deviceName c).list = lib.list ∧
              (lib.acquireHandle deviceName c).client = lib.client)) := by
  intro lib
  have named : Named (labels lib.list) := named_afterOps ops
  refine ⟨?_, fun e member => named.isFor_iff member, fun deviceName c => ?_⟩
  · have nodup := named.nodup
    rwa [labels, List.map_map] at nodup
  · rw [← named.find?_eq deviceName]
    exact ⟨fun e found => Lib.acquireHandle_known found c, fun unknown =>
      ⟨fun o opens => Lib.acquireHandle_opened unknown opens,
        fun es fails => Lib.acquireHandle_failed unknown fails⟩⟩

namespace Poles

/-- A short name, and a name of 16 characters twice. -/
def rack : List Op :=
  [.acquireHandle "exanic0".toList card, .acquireHandle "exanic-rack17-u3".toList card,
    .acquireHandle "exanic-rack17-u3".toList card]

-- The long name has two handles, and the newer one is found by its first 15 characters.
theorem shared_exactly_rack :
    (((Lib.afterOps rack).list.map Exanic.device).filter (·.length < 16)).Nodup ∧
      (∀ e ∈ (Lib.afterOps rack).list, ∀ deviceName : CStr,
        e.isFor deviceName = true ↔ deviceName = e.device.take 15) ∧
      (Lib.afterOps rack).list.map Exanic.id = [2, 1, 0] ∧
      ((Lib.afterOps rack).acquireHandle "exanic-rack17-u".toList card).client =
        2 ::ₘ (Lib.afterOps rack).client ∧
      ((Lib.afterOps rack).acquireHandle "exanic0".toList card).client =
        0 ::ₘ (Lib.afterOps rack).client := by
  obtain ⟨once, found, acquires⟩ := shared_exactly rack
  have long : ((Lib.afterOps rack).list.find?
      (·.device.take 15 = "exanic-rack17-u".toList)).map Exanic.id = some 2 := by decide
  have short : ((Lib.afterOps rack).list.find?
      (·.device.take 15 = "exanic0".toList)).map Exanic.id = some 0 := by decide
  obtain ⟨newer, there, two⟩ := Option.map_eq_some_iff.1 long
  obtain ⟨first, here, zero⟩ := Option.map_eq_some_iff.1 short
  refine ⟨once, found, by decide, ?_, ?_⟩
  · rw [((acquires _ card).1 newer there).2, two]
  · rw [((acquires _ card).1 first here).2, zero]

end Poles

end ExanicCapture.Handle
