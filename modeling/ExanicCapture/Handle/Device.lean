/-
# Handle.Device -- opening and closing a device

`exanic_acquire_handle` opens the device file and maps what the card has, one region
after the other.  When something fails it jumps to one of a ladder of labels, each of
which gives back one thing more than the one above it; a region is unmapped if its
pointer is not NULL.  `exanic_release_handle` unmaps them all.

Every way out gives back what it has taken, but one: the label for a failed allocation
of the handle itself is that of the last region, which it leaves mapped
(`openDevice_goes`).
-/
import ExanicCapture.Theory.Estate
import Mathlib.Algebra.BigOperators.Group.List.Basic
import Mathlib.Algebra.Order.Group.Multiset
import Mathlib.Data.Finset.Basic

namespace ExanicCapture.Handle

set_option autoImplicit false

open Theory Custody

/-! ## Resources -/

/-- What a handle maps. -/
inductive Region where
  | registers
  | info
  | feedback
  | tx
  | filters
  | devkitRegs
  | devkitMem
  | devkitRegsEx
  | devkitMemEx
deriving DecidableEq

/-- What the library gets from the system; the numbers tell apart what was got when. -/
inductive Resource where
  | fd (h : ℕ)
  | map (h : ℕ) (r : Region)
  | exanic (h : ℕ)
  | filterBuffer (x : ℕ)
  | ring (x : ℕ)
  | rx (x : ℕ)
  | txBuffer (t : ℕ)
  | feedbackSlot (t : ℕ)
  | offsets (t : ℕ)
  | tx (t : ℕ)
deriving DecidableEq

def Resource.id : Resource → ℕ
  | fd h => h
  | map h _ => h
  | exanic h => h
  | filterBuffer x => x
  | ring x => x
  | rx x => x
  | txBuffer t => t
  | feedbackSlot t => t
  | offsets t => t
  | tx t => t

abbrev Effects := List (Effect Resource)

/-! ## The code -/

/-- What the system says while a device is opened. -/
structure DeviceCalls where
  opened : Bool
  info : Bool
  txBufferSize : ℕ
  filtersSize : ℕ
  /-- Sizes of the registers and of the memory, if there are any. -/
  devkit : Option (ℕ × ℕ)
  devkitEx : Option (ℕ × ℕ)
  mmap : Region → Bool
  malloc : Bool

/-- The region is there to be mapped. -/
def DeviceCalls.asks (c : DeviceCalls) : Region → Bool
  | .registers => true
  | .info => true
  | .feedback => 0 < c.txBufferSize
  | .tx => 0 < c.txBufferSize
  | .filters => 0 < c.filtersSize
  | .devkitRegs => c.devkit.any (0 < ·.1)
  | .devkitMem => c.devkit.any (0 < ·.2)
  | .devkitRegsEx => c.devkitEx.any (0 < ·.1)
  | .devkitMemEx => c.devkitEx.any (0 < ·.2)

section Code

variable (c : DeviceCalls) (h : ℕ)

/-- The pointers that are not NULL, and what was done. -/
structure Opening where
  pointers : Finset Region
  effects : Effects

/-- `if (p != NULL) munmap(p, ..)`. -/
def munmapIf (p : Finset Region) (r : Region) : Effects :=
  if r ∈ p then [.release (.map h r)] else []

/-- `err_mmap_registers`. -/
def errMmapRegisters : Effects := [.release (.fd h)]

def errMmapFeedback (p : Finset Region) : Effects :=
  munmapIf h p .info ++ .release (.map h .registers) :: errMmapRegisters h

def errMmapTx (p : Finset Region) : Effects := munmapIf h p .feedback ++ errMmapFeedback h p

def errMmapFilters (p : Finset Region) : Effects := munmapIf h p .tx ++ errMmapTx h p

def errMmapDevkitRegs (p : Finset Region) : Effects := munmapIf h p .filters ++ errMmapFilters h p

def errMmapDevkitMem (p : Finset Region) : Effects :=
  munmapIf h p .devkitRegs ++ errMmapDevkitRegs h p

def errMmapDevkitRegsEx (p : Finset Region) : Effects :=
  munmapIf h p .devkitMem ++ errMmapDevkitMem h p

def errMmapDevkitMemEx (p : Finset Region) : Effects :=
  munmapIf h p .devkitRegsEx ++ errMmapDevkitRegsEx h p

/-- Map a region if there is one, or go to the label. -/
def mapOr (r : Region) (label : Finset Region → Effects) (o : Opening) :
    Except Effects Opening :=
  if c.asks r then
    if c.mmap r then .ok ⟨insert r o.pointers, o.effects ++ [.use (.fd h), .acquire (.map h r)]⟩
    else .error (o.effects ++ .use (.fd h) :: label o.pointers)
  else .ok o

/-- The info page may be missing. -/
def mapInfo (o : Opening) : Opening :=
  if c.mmap .info then
    ⟨insert .info o.pointers, o.effects ++ [.use (.fd h), .acquire (.map h .info)]⟩
  else ⟨o.pointers, o.effects ++ [.use (.fd h)]⟩

/-- The part of `exanic_acquire_handle` for a device that is not open yet. -/
def openDevice : Except Effects Opening :=
  if !c.opened then .error []
  else if !c.info then .error [.acquire (.fd h), .use (.fd h), .release (.fd h)]
  else do
    let o ← mapOr c h .registers (fun _ => errMmapRegisters h)
      ⟨∅, [.acquire (.fd h), .use (.fd h)]⟩
    let o := mapInfo c h o
    let o ← mapOr c h .feedback (errMmapFeedback h) o
    let o ← mapOr c h .tx (errMmapTx h) o
    let o ← mapOr c h .filters (errMmapFilters h) o
    let o ← mapOr c h .devkitRegs (errMmapDevkitRegs h) o
    let o ← mapOr c h .devkitMem (errMmapDevkitMem h) o
    let o ← mapOr c h .devkitRegsEx (errMmapDevkitRegsEx h) o
    let o ← mapOr c h .devkitMemEx (errMmapDevkitMemEx h) o
    if c.malloc then .ok ⟨o.pointers, o.effects ++ [.acquire (.exanic h)]⟩
    else .error (o.effects ++ errMmapDevkitMemEx h o.pointers)

/-- The part of `exanic_release_handle` behind the last reference. -/
def closeDevice (p : Finset Region) : Effects :=
  .use (.exanic h) ::
    (munmapIf h p .devkitMemEx ++ munmapIf h p .devkitRegsEx ++ munmapIf h p .devkitMem ++
      munmapIf h p .devkitRegs ++ munmapIf h p .filters ++ munmapIf h p .tx ++
      munmapIf h p .feedback ++ munmapIf h p .info ++
      [.release (.map h .registers), .release (.fd h), .release (.exanic h)])

end Code

/-! ## What is held -/

def maps (h : ℕ) (p : Finset Region) : Multiset Resource := p.val.map (.map h)

theorem maps_insert {h : ℕ} {p : Finset Region} {r : Region} (new : r ∉ p) :
    maps h (insert r p) = .map h r ::ₘ maps h p := by
  rw [maps, Finset.insert_val_of_notMem new, Multiset.map_cons]
  rfl

theorem maps_erase {h : ℕ} {p : Finset Region} {r : Region} (there : r ∈ p) :
    maps h p = .map h r ::ₘ maps h (p.erase r) := by
  rw [← maps_insert (Finset.notMem_erase r p), Finset.insert_erase there]

theorem mem_maps {h : ℕ} {p : Finset Region} {res : Resource} :
    res ∈ maps h p ↔ ∃ r ∈ p, res = .map h r := by
  simp [maps, eq_comm]

/-- A device while it is opened. -/
def held (h : ℕ) (p : Finset Region) : Multiset Resource := .fd h ::ₘ maps h p

/-- Everything that is acquired gets this number. -/
def About (h : ℕ) (es : Effects) : Prop := ∀ r, .acquire r ∈ es → r.id = h

namespace About

variable {h : ℕ} {es fs : Effects} {r : Resource}

theorem nil : About h [] := fun _ member => absurd member List.not_mem_nil

theorem acquire (same : r.id = h) (rest : About h es) : About h (.acquire r :: es) := by
  intro q member
  rcases List.mem_cons.1 member with here | later
  · cases here
    exact same
  · exact rest q later

theorem use (rest : About h es) : About h (.use r :: es) := fun q member =>
  rest q ((List.mem_cons.1 member).resolve_left (by simp))

theorem release (rest : About h es) : About h (.release r :: es) := fun q member =>
  rest q ((List.mem_cons.1 member).resolve_left (by simp))

theorem tryRelease (ok : Bool) (rest : About h es) : About h (Custody.tryRelease ok r ++ es) :=
  fun q member => rest q ((List.mem_append.1 member).resolve_left (acquire_notMem_tryRelease ok r q))

theorem append (first : About h es) (second : About h fs) : About h (es ++ fs) := fun q member =>
  (List.mem_append.1 member).elim (first q) (second q)

end About

section Labels

variable {h : ℕ} {p : Finset Region}

theorem acquire_notMem_munmaps (rs : List Region) (r : Resource) :
    .acquire r ∉ rs.flatMap (munmapIf h p) := by
  intro member
  obtain ⟨q, -, there⟩ := List.mem_flatMap.1 member
  unfold munmapIf at there
  split at there
  · cases List.mem_singleton.1 there
  · cases there

/-- The regions of the list are unmapped, and nothing else. -/
theorem goes_munmaps {rs : List Region} (once : rs.Nodup) {q : Finset Region}
    (same : ∀ r ∈ rs, r ∈ q ↔ r ∈ p) (s : Multiset Resource) :
    Goes (maps h q + s) (rs.flatMap (munmapIf h p)) (maps h (q \ rs.toFinset) + s) := by
  induction rs generalizing q with
  | nil =>
      rw [List.toFinset_nil, Finset.sdiff_empty]
      exact .nil _
  | cons r rs ih =>
      obtain ⟨other, once⟩ := List.nodup_cons.1 once
      have later : ∀ r' ∈ rs, r' ∈ q.erase r ↔ r' ∈ p := fun r' member => by
        rw [Finset.mem_erase, and_iff_right (ne_of_mem_of_not_mem member other)]
        exact same r' (List.mem_cons_of_mem _ member)
      have rest := ih once later
      have left : q.erase r \ rs.toFinset = q \ (r :: rs).toFinset := by
        rw [List.toFinset_cons, Finset.erase_eq, sdiff_sdiff_left]
        rfl
      rw [left] at rest
      have tested := same r List.mem_cons_self
      rw [List.flatMap_cons]
      by_cases there : r ∈ p
      · rw [munmapIf, if_pos there, maps_erase (tested.2 there), Multiset.cons_add]
        exact .release rest
      · rw [munmapIf, if_neg there]
        rwa [Finset.erase_eq_of_notMem (mt tested.1 there)] at rest

/-- The way down from a label: what it does not know of stays mapped. -/
theorem goes_label {rs : List Region} (once : rs.Nodup) (registers : .registers ∈ p)
    (apart : .registers ∉ rs) :
    Goes (held h p) (rs.flatMap (munmapIf h p) ++ [.release (.map h .registers), .release (.fd h)])
      (maps h ((p \ rs.toFinset).erase .registers)) := by
  have order : held h p = maps h p + {.fd h} := by
    rw [held, ← Multiset.singleton_add, add_comm]
  rw [order]
  refine (goes_munmaps once (fun r _ => Iff.rfl) _).append ?_
  have there : Region.registers ∈ p \ rs.toFinset :=
    Finset.mem_sdiff.2 ⟨registers, mt List.mem_toFinset.1 apart⟩
  rw [maps_erase there, Multiset.cons_add]
  refine .release ?_
  rw [add_comm, Multiset.singleton_add]
  exact .release (.nil _)

theorem about_label (rs : List Region) :
    About h (rs.flatMap (munmapIf h p) ++ [.release (.map h .registers), .release (.fd h)]) :=
  About.append (fun r member => absurd member (acquire_notMem_munmaps rs r))
    (.release (.release .nil))

end Labels

/-! ## Opening -/

/-- The device is open and these regions have been tried. -/
structure Opened (h : ℕ) (tried : List Region) (o : Opening) : Prop where
  goes : Goes 0 o.effects (held h o.pointers)
  about : About h o.effects
  registers : .registers ∈ o.pointers
  inside : ∀ r ∈ o.pointers, r = .registers ∨ r ∈ tried

/-- The allocation of the handle fails where it costs a region. -/
def DeviceCalls.loses (c : DeviceCalls) : Bool :=
  c.opened && c.info &&
    [.registers, .feedback, .tx, .filters, .devkitRegs, .devkitMem, .devkitRegsEx,
      .devkitMemEx].all (fun r => !c.asks r || c.mmap r) &&
    c.asks .devkitMemEx && !c.malloc

def DeviceCalls.lost (c : DeviceCalls) (h : ℕ) : Multiset Resource :=
  if c.loses then {.map h .devkitMemEx} else 0

section Stages

variable {c : DeviceCalls} {h : ℕ} {tried : List Region} {o : Opening}

theorem Opened.insert {r : Region} (opened : Opened h tried o) (new : r ∉ o.pointers) :
    Opened h (r :: tried)
      ⟨Insert.insert r o.pointers, o.effects ++ [.use (.fd h), .acquire (.map h r)]⟩ where
  goes := by
    refine opened.goes.append (.use (Multiset.mem_cons_self _ _) (.acquire ?_ ?_))
    · rw [held, Multiset.mem_cons, mem_maps]
      rintro (same | ⟨q, there, same⟩)
      · cases same
      · cases same
        exact new there
    · rw [held, Multiset.cons_swap, ← maps_insert new]
      exact .nil _
  about := opened.about.append (.use (.acquire rfl .nil))
  registers := Finset.mem_insert_of_mem opened.registers
  inside := by
    intro q member
    rcases Finset.mem_insert.1 member with rfl | there
    · exact .inr List.mem_cons_self
    · exact (opened.inside q there).imp_right (List.mem_cons_of_mem _)

/-- One stage: the region is mapped, or there is none, or all is given back. -/
theorem mapOr_cases {r : Region} {label : Finset Region → Effects} (opened : Opened h tried o)
    (once : tried.Nodup) (new : r ∉ tried) (other : r ≠ .registers) (apart : .registers ∉ tried)
    (way : ∀ p, label p =
      tried.flatMap (munmapIf h p) ++ [.release (.map h .registers), .release (.fd h)]) :
    (∃ effects, mapOr c h r label o = .error effects ∧ Goes 0 effects 0 ∧ About h effects ∧
        c.asks r = true ∧ c.mmap r = false) ∨
      ∃ o', mapOr c h r label o = .ok o' ∧ Opened h (r :: tried) o' ∧
        (c.asks r = true → c.mmap r = true) ∧ (r ∈ o'.pointers ↔ c.asks r = true) := by
  have fresh : r ∉ o.pointers := fun there =>
    (opened.inside r there).elim other new
  unfold mapOr
  by_cases asks : c.asks r = true
  · by_cases mapped : c.mmap r = true
    · refine .inr ⟨_, by rw [if_pos asks, if_pos mapped], opened.insert fresh, fun _ => mapped, ?_⟩
      exact ⟨fun _ => asks, fun _ => Finset.mem_insert_self _ _⟩
    · refine .inl ⟨_, by rw [if_pos asks, if_neg mapped], ?_, ?_, asks, by simpa using mapped⟩
      · refine opened.goes.append (.use (Multiset.mem_cons_self _ _) ?_)
        have down : Goes (held h o.pointers) _ _ := goes_label once opened.registers apart
        have nothing : (o.pointers \ tried.toFinset).erase .registers = ∅ := by
          rw [Finset.eq_empty_iff_forall_notMem]
          intro q member
          rw [Finset.mem_erase, Finset.mem_sdiff, List.mem_toFinset] at member
          exact (opened.inside q member.2.1).elim member.1 member.2.2
        rw [nothing] at down
        rw [way]
        exact down
      · refine opened.about.append ?_
        rw [way]
        exact .use (about_label tried)
  · exact .inr ⟨o, by rw [if_neg asks], ⟨opened.goes, opened.about, opened.registers,
      fun q there => (opened.inside q there).imp_right (List.mem_cons_of_mem _)⟩,
      fun yes => absurd yes asks, fun there => absurd there fresh, fun yes => absurd yes asks⟩

theorem mapInfo_opened (opened : Opened h [] o) : Opened h [.info] (mapInfo c h o) := by
  unfold mapInfo
  split
  · refine opened.insert fun there => ?_
    rcases opened.inside _ there with same | member
    · cases same
    · cases member
  · exact ⟨opened.goes.append (.use (Multiset.mem_cons_self _ _) (.nil _)),
      opened.about.append (.use .nil), opened.registers,
      fun q there => (opened.inside q there).imp_right (List.mem_cons_of_mem _)⟩

end Stages

/-- An open device and its handle. -/
def owns (h : ℕ) (p : Finset Region) : Multiset Resource := .exanic h ::ₘ held h p

/-- What opening a device may come to. -/
def Opens (c : DeviceCalls) (h : ℕ) : Except Effects Opening → Prop
  | .error es => Goes 0 es (c.lost h) ∧ About h es
  | .ok o => Goes 0 o.effects (owns h o.pointers) ∧ About h o.effects ∧
      .registers ∈ o.pointers ∧ c.loses = false

theorem DeviceCalls.lost_eq_zero {c : DeviceCalls} {h : ℕ} (kept : c.loses = false) : c.lost h = 0 := by
  rw [lost, kept]
  rfl

/-- Nothing is lost before the last stage. -/
theorem opens_error {c : DeviceCalls} {h : ℕ} {es : Effects} (kept : c.loses = false)
    (goes : Goes 0 es 0) (about : About h es) : Opens c h (.error es) := by
  refine ⟨?_, about⟩
  rw [DeviceCalls.lost_eq_zero kept]
  exact goes

/-- A stage, and what follows it. -/
theorem stage_opens {c : DeviceCalls} {h : ℕ} {tried : List Region} {o : Opening} {r : Region}
    {label : Finset Region → Effects} {next : Opening → Except Effects Opening}
    (opened : Opened h tried o) (once : tried.Nodup) (new : r ∉ tried) (other : r ≠ .registers)
    (apart : .registers ∉ tried)
    (way : ∀ p, label p =
      tried.flatMap (munmapIf h p) ++ [.release (.map h .registers), .release (.fd h)])
    (kept : c.asks r = true → c.mmap r = false → c.loses = false)
    (rest : ∀ o', Opened h (r :: tried) o' → (c.asks r = true → c.mmap r = true) →
      (r ∈ o'.pointers ↔ c.asks r = true) → Opens c h (next o')) :
    Opens c h (mapOr c h r label o >>= next) := by
  rcases mapOr_cases opened once new other apart way with
    ⟨es, failed, goes, about, asks, unmapped⟩ | ⟨o', done, opened, mapped, there⟩
  · rw [failed]
    exact opens_error (kept asks unmapped) goes about
  · rw [done]
    exact rest o' opened mapped there

/-- The label that the failed allocation goes to knows of all regions but the last. -/
def labelled : List Region :=
  [.devkitRegsEx, .devkitMem, .devkitRegs, .filters, .tx, .feedback, .info]

theorem errMmapDevkitMemEx_eq (h : ℕ) (p : Finset Region) : errMmapDevkitMemEx h p =
    labelled.flatMap (munmapIf h p) ++ [.release (.map h .registers), .release (.fd h)] := by
  simp [labelled, errMmapDevkitMemEx, errMmapDevkitRegsEx, errMmapDevkitMem, errMmapDevkitRegs,
    errMmapFilters, errMmapTx, errMmapFeedback, errMmapRegisters]

/-- What stays mapped behind that label. -/
theorem maps_left {c : DeviceCalls} {h : ℕ} {o : Opening}
    (opened : Opened h (.devkitMemEx :: labelled) o)
    (there : .devkitMemEx ∈ o.pointers ↔ c.asks .devkitMemEx = true)
    (loses : c.loses = c.asks .devkitMemEx) :
    maps h ((o.pointers \ labelled.toFinset).erase .registers) = c.lost h := by
  have only : ∀ q ∈ (o.pointers \ labelled.toFinset).erase .registers, q = .devkitMemEx := by
    intro q member
    rw [Finset.mem_erase, Finset.mem_sdiff, List.mem_toFinset] at member
    have tried := (opened.inside q member.2.1).resolve_left member.1
    exact (List.mem_cons.1 tried).resolve_right member.2.2
  by_cases asks : c.asks .devkitMemEx = true
  · have all : (o.pointers \ labelled.toFinset).erase .registers = {.devkitMemEx} := by
      refine Finset.eq_singleton_iff_unique_mem.2 ⟨?_, only⟩
      simp [labelled, there.2 asks]
    rw [all, DeviceCalls.lost, loses, if_pos asks]
    rfl
  · have none : (o.pointers \ labelled.toFinset).erase .registers = ∅ := by
      rw [Finset.eq_empty_iff_forall_notMem]
      intro q member
      have here := (Finset.mem_sdiff.1 (Finset.mem_of_mem_erase member)).1
      rw [only q member] at here
      exact asks (there.1 here)
    rw [none, DeviceCalls.lost, loses, if_neg asks]
    rfl

/-- The allocation of the handle, and its label. -/
theorem last_opens {c : DeviceCalls} {h : ℕ} {o : Opening}
    (opened : Opened h (.devkitMemEx :: labelled) o)
    (there : .devkitMemEx ∈ o.pointers ↔ c.asks .devkitMemEx = true)
    (reached : c.loses = (c.asks .devkitMemEx && !c.malloc)) :
    Opens c h (if c.malloc then .ok ⟨o.pointers, o.effects ++ [.acquire (.exanic h)]⟩
      else .error (o.effects ++ errMmapDevkitMemEx h o.pointers)) := by
  by_cases malloc : c.malloc = true
  · rw [if_pos malloc]
    refine ⟨opened.goes.append (.acquire ?_ (.nil _)), opened.about.append (.acquire rfl .nil),
      opened.registers, ?_⟩
    · rw [held, Multiset.mem_cons, mem_maps]
      rintro (same | ⟨q, -, same⟩) <;> cases same
    · rw [reached, malloc, Bool.not_true, Bool.and_false]
  · rw [if_neg malloc, errMmapDevkitMemEx_eq]
    refine ⟨opened.goes.append ?_, opened.about.append (about_label _)⟩
    have loses : c.loses = c.asks .devkitMemEx := by
      rw [reached, Bool.eq_false_iff.2 malloc, Bool.not_false, Bool.and_true]
    rw [← maps_left opened there loses]
    exact goes_label (by decide) opened.registers (by decide)

/-- The device is open and its registers are mapped. -/
def started (h : ℕ) : Opening :=
  ⟨{.registers}, [.acquire (.fd h), .use (.fd h), .use (.fd h), .acquire (.map h .registers)]⟩

theorem started_opened (h : ℕ) : Opened h [] (started h) where
  goes := by
    refine .acquire (Multiset.notMem_zero _) (.use (Multiset.mem_cons_self _ _)
      (.use (Multiset.mem_cons_self _ _) (.acquire (by simp) ?_)))
    rw [Multiset.cons_swap]
    exact .nil _
  about := .acquire rfl (.use (.use (.acquire rfl .nil)))
  registers := Finset.mem_singleton_self _
  inside := fun _ there => .inl (Finset.mem_singleton.1 there)

theorem mapRegisters {c : DeviceCalls} {h : ℕ} (mapped : c.mmap .registers = true) :
    mapOr c h .registers (fun _ => errMmapRegisters h) ⟨∅, [.acquire (.fd h), .use (.fd h)]⟩ =
      .ok (started h) := by
  simp [mapOr, DeviceCalls.asks, mapped, started]

theorem mapRegisters_failed {c : DeviceCalls} {h : ℕ} (unmapped : c.mmap .registers = false) :
    mapOr c h .registers (fun _ => errMmapRegisters h) ⟨∅, [.acquire (.fd h), .use (.fd h)]⟩ =
      .error [.acquire (.fd h), .use (.fd h), .use (.fd h), .release (.fd h)] := by
  simp [mapOr, DeviceCalls.asks, unmapped, errMmapRegisters]

theorem DeviceCalls.loses_eq_false {c : DeviceCalls} {r : Region} (other : r ≠ .info)
    (asks : c.asks r = true) (unmapped : c.mmap r = false) : c.loses = false := by
  cases r <;> first | exact absurd rfl other | simp [DeviceCalls.loses, asks, unmapped]

theorem DeviceCalls.passes {c : DeviceCalls} {r : Region} (mapped : c.asks r = true → c.mmap r = true) :
    (!c.asks r || c.mmap r) = true := by
  cases asks : c.asks r with
  | false => rfl
  | true => exact mapped asks

/-- **Opening a device takes what the handle then owns, or gives all back**, but for what
the failed allocation of the handle loses. -/
theorem openDevice_goes (c : DeviceCalls) (h : ℕ) : Opens c h (openDevice c h) := by
  unfold openDevice
  cases opened : c.opened with
  | false => exact opens_error (by simp [DeviceCalls.loses, opened]) (.nil _) .nil
  | true =>
  cases info : c.info with
  | false =>
      refine opens_error (by simp [DeviceCalls.loses, info]) ?_
        (.acquire rfl (.use (.release .nil)))
      exact .acquire (Multiset.notMem_zero _) (.use (Multiset.mem_cons_self _ _)
        (.release (.nil _)))
  | true =>
  simp only [Bool.not_true, Bool.false_eq_true, if_false]
  cases registers : c.mmap .registers with
  | false =>
      rw [mapRegisters_failed registers]
      refine opens_error (DeviceCalls.loses_eq_false (by decide) rfl registers) ?_
        (.acquire rfl (.use (.use (.release .nil))))
      exact .acquire (Multiset.notMem_zero _) (.use (Multiset.mem_cons_self _ _)
        (.use (Multiset.mem_cons_self _ _) (.release (.nil _))))
  | true =>
  rw [mapRegisters registers]
  have kept : ∀ {r : Region}, r ≠ .info → c.asks r = true → c.mmap r = false → c.loses = false :=
    fun other asks unmapped => DeviceCalls.loses_eq_false other asks unmapped
  refine stage_opens (mapInfo_opened (started_opened h)) (by decide) (by decide) (by decide)
    (by decide) (fun p => ?_) (kept (by decide)) fun o1 opened1 mapped1 _ => ?_
  · simp [errMmapFeedback, errMmapRegisters]
  refine stage_opens opened1 (by decide) (by decide) (by decide) (by decide) (fun p => ?_)
    (kept (by decide)) fun o2 opened2 mapped2 _ => ?_
  · simp [errMmapTx, errMmapFeedback, errMmapRegisters]
  refine stage_opens opened2 (by decide) (by decide) (by decide) (by decide) (fun p => ?_)
    (kept (by decide)) fun o3 opened3 mapped3 _ => ?_
  · simp [errMmapFilters, errMmapTx, errMmapFeedback, errMmapRegisters]
  refine stage_opens opened3 (by decide) (by decide) (by decide) (by decide) (fun p => ?_)
    (kept (by decide)) fun o4 opened4 mapped4 _ => ?_
  · simp [errMmapDevkitRegs, errMmapFilters, errMmapTx, errMmapFeedback, errMmapRegisters]
  refine stage_opens opened4 (by decide) (by decide) (by decide) (by decide) (fun p => ?_)
    (kept (by decide)) fun o5 opened5 mapped5 _ => ?_
  · simp [errMmapDevkitMem, errMmapDevkitRegs, errMmapFilters, errMmapTx, errMmapFeedback,
      errMmapRegisters]
  refine stage_opens opened5 (by decide) (by decide) (by decide) (by decide) (fun p => ?_)
    (kept (by decide)) fun o6 opened6 mapped6 _ => ?_
  · simp [errMmapDevkitRegsEx, errMmapDevkitMem, errMmapDevkitRegs, errMmapFilters, errMmapTx,
      errMmapFeedback, errMmapRegisters]
  refine stage_opens opened6 (by decide) (by decide) (by decide) (by decide) (fun p => ?_)
    (kept (by decide)) fun o7 opened7 mapped7 there => ?_
  · simp [errMmapDevkitMemEx, errMmapDevkitRegsEx, errMmapDevkitMem, errMmapDevkitRegs,
      errMmapFilters, errMmapTx, errMmapFeedback, errMmapRegisters]
  refine last_opens opened7 there ?_
  simp only [DeviceCalls.loses, opened, info, List.all_cons, List.all_nil, registers,
    DeviceCalls.passes mapped1, DeviceCalls.passes mapped2, DeviceCalls.passes mapped3,
    DeviceCalls.passes mapped4, DeviceCalls.passes mapped5, DeviceCalls.passes mapped6,
    DeviceCalls.passes mapped7, Bool.or_true, Bool.true_and]

/-! ## Closing -/

theorem closeDevice_eq (h : ℕ) (p : Finset Region) : closeDevice h p = .use (.exanic h) ::
    ([.devkitMemEx, .devkitRegsEx, .devkitMem, .devkitRegs, .filters, .tx, .feedback,
      .info].flatMap (munmapIf h p) ++
      [.release (.map h .registers), .release (.fd h), .release (.exanic h)]) := by
  simp [closeDevice]

/-- Closing gives back all that opening has taken. -/
theorem closeDevice_goes {h : ℕ} {p : Finset Region} (registers : .registers ∈ p) :
    Goes (owns h p) (closeDevice h p) 0 := by
  have order : owns h p = maps h p + {.fd h, .exanic h} := by
    rw [owns, held, Multiset.cons_swap, add_comm, Multiset.insert_eq_cons, Multiset.cons_add,
      Multiset.singleton_add]
  have left : p \ [Region.devkitMemEx, .devkitRegsEx, .devkitMem, .devkitRegs, .filters, .tx,
      .feedback, .info].toFinset = {.registers} := by
    refine Finset.eq_singleton_iff_unique_mem.2 ⟨by simp [registers], fun q member => ?_⟩
    have other := (Finset.mem_sdiff.1 member).2
    cases q <;> first | rfl | simp at other
  have last : maps h {.registers} = {.map h .registers} := rfl
  rw [closeDevice_eq]
  refine .use (Multiset.mem_cons_self _ _) ?_
  rw [order]
  refine (goes_munmaps (by decide) (fun r _ => Iff.rfl) _).append ?_
  rw [left, last, Multiset.singleton_add]
  exact .release (.release (.release (.nil _)))

theorem acquire_notMem_closeDevice (h : ℕ) (p : Finset Region) (r : Resource) :
    .acquire r ∉ closeDevice h p := by
  rw [closeDevice_eq, List.mem_cons, List.mem_append, not_or, not_or]
  exact ⟨by simp, acquire_notMem_munmaps _ r, by simp⟩

end ExanicCapture.Handle
