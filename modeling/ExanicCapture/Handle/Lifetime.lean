/-
# Handle.Lifetime -- what is acquired is released, and not used afterwards

A handle in the list has as many references as the program, the buffers and the failed
calls have to it (`Counts`), so a buffer keeps its handle open however early the program
releases it, and whatever the library uses it has (`handles_sound`).

When the program has released all, the library has too, unless a call has failed at one
of these places (`released_iff`): the allocation of a handle whose extended devkit memory
is mapped; the mapping of a filter buffer or the allocation of a receive buffer; the
bookkeeping of a transmit buffer; and the calls that give a filter buffer, a transmit
buffer or a feedback slot back to the driver.
-/
import ExanicCapture.Handle.Library
import Mathlib.Data.Multiset.OrderedMonoid

namespace ExanicCapture.Handle

set_option autoImplicit false

open Theory Custody Capture

/-! ## References -/

/-- The references to the handles of the list. -/
structure Counts (list : List Exanic) (refs : Multiset ℕ) : Prop where
  once : (list.map Exanic.id).Nodup
  counted : ∀ e ∈ list, e.refCount.toInt = refs.count e.id
  live : ∀ h ∈ refs, ∃ e ∈ list, e.id = h
  wanted : ∀ e ∈ list, e.id ∈ refs
  registers : ∀ e ∈ list, .registers ∈ e.pointers

section Counts

variable {list : List Exanic} {refs : Multiset ℕ} {h : ℕ}

/-- A count that has room goes up by one. -/
theorem toInt_add_one {count : Int32} {n : ℕ} (counted : count.toInt = n) (room : n < 2 ^ 31 - 1) :
    (count + 1).toInt = ((n + 1 : ℕ) : ℤ) := by
  rw [Int32.toInt_add, counted, Int32.toInt_one, Int.bmod_eq_of_le (by omega) (by omega)]
  rfl

/-- And a count of more than zero down. -/
theorem toInt_sub_one {count : Int32} {n : ℕ} (counted : count.toInt = ((n + 1 : ℕ) : ℤ)) :
    (count - 1).toInt = n := by
  have small := count.toInt_lt
  rw [Int32.toInt_sub, counted, Int32.toInt_one, Int.bmod_eq_of_le (by omega) (by omega)]
  omega

/-- Counting changes nothing but the count. -/
theorem map_recount {β : Type*} {f : Exanic → β} (g : Int32 → Int32)
    (same : ∀ e : Exanic, f { e with refCount := g e.refCount } = f e) (list : List Exanic) (h : ℕ) :
    (list.map fun e => if e.id = h then { e with refCount := g e.refCount } else e).map f =
      list.map f := by
  rw [List.map_map]
  refine List.map_congr_left fun e _ => ?_
  simp only [Function.comp]
  split
  · exact same e
  · rfl

theorem retain_ids (list : List Exanic) (h : ℕ) :
    (retain list h).map Exanic.id = list.map Exanic.id :=
  map_recount (· + 1) (fun _ => rfl) list h

theorem Counts.retain (counts : Counts list refs) (there : h ∈ refs)
    (room : refs.count h < 2 ^ 31 - 1) : Counts (retain list h) (h ::ₘ refs) where
  once := by
    rw [retain_ids]
    exact counts.once
  counted := by
    intro e member
    obtain ⟨e, old, rfl⟩ := List.mem_map.1 member
    have count := counts.counted e old
    by_cases same : e.id = h
    · subst same
      simp only [if_true, Multiset.count_cons_self]
      exact toInt_add_one count room
    · simp only [if_neg same]
      rw [count, Multiset.count_cons_of_ne same]
  live := by
    intro h' member
    obtain ⟨e, old, same⟩ := counts.live h' ((Multiset.mem_cons.1 member).elim (· ▸ there) id)
    have ids : h' ∈ (Handle.retain list h).map Exanic.id := by
      rw [retain_ids, ← same]
      exact List.mem_map_of_mem old
    exact List.mem_map.1 ids
  wanted := by
    intro e member
    obtain ⟨e, old, rfl⟩ := List.mem_map.1 member
    refine Multiset.mem_cons_of_mem ?_
    split
    · exact counts.wanted e old
    · exact counts.wanted e old
  registers := by
    intro e member
    obtain ⟨e, old, rfl⟩ := List.mem_map.1 member
    split
    · exact counts.registers e old
    · exact counts.registers e old

theorem Counts.insert (counts : Counts list refs) {e : Exanic} (new : e.id ∉ list.map Exanic.id)
    (one : e.refCount = 1) (registers : .registers ∈ e.pointers) :
    Counts (e :: list) (e.id ::ₘ refs) where
  once := List.nodup_cons.2 ⟨new, counts.once⟩
  counted := by
    have unknown : e.id ∉ refs := fun member => by
      obtain ⟨e', old, same⟩ := counts.live _ member
      exact new (same ▸ List.mem_map_of_mem old)
    intro e' member
    rcases List.mem_cons.1 member with rfl | old
    · rw [one, Multiset.count_cons_self, Multiset.count_eq_zero.2 unknown]
      rfl
    · have other : e'.id ≠ e.id := fun same => new (same ▸ List.mem_map_of_mem old)
      rw [counts.counted e' old, Multiset.count_cons_of_ne other]
  live := by
    intro h member
    rcases Multiset.mem_cons.1 member with rfl | old
    · exact ⟨e, List.mem_cons_self, rfl⟩
    · obtain ⟨e', there, same⟩ := counts.live h old
      exact ⟨e', List.mem_cons_of_mem _ there, same⟩
  wanted := by
    intro e' member
    rcases List.mem_cons.1 member with rfl | old
    · exact Multiset.mem_cons_self _ _
    · exact Multiset.mem_cons_of_mem (counts.wanted e' old)
  registers := List.forall_mem_cons.2 ⟨registers, counts.registers⟩

/-- The handle, where it is in the list. -/
theorem Counts.split (counts : Counts list refs) (there : h ∈ refs) :
    ∃ e before after, list = before ++ e :: after ∧ e.id = h ∧
      (∀ e' ∈ before, e'.id ≠ h) ∧ (∀ e' ∈ after, e'.id ≠ h) := by
  obtain ⟨e, member, same⟩ := counts.live h there
  obtain ⟨before, after, rfl⟩ := List.append_of_mem member
  have once := counts.once
  rw [List.map_append, List.map_cons, List.nodup_append] at once
  obtain ⟨-, tail, apart⟩ := once
  refine ⟨e, before, after, rfl, same, fun e' inside same' => ?_, fun e' inside same' => ?_⟩
  · exact apart _ (List.mem_map_of_mem inside) _ List.mem_cons_self (same'.trans same.symm)
  · exact (List.nodup_cons.1 tail).1 (same ▸ same' ▸ List.mem_map_of_mem inside)

/-- One reference less, or none left. -/
theorem release_split {e : Exanic} {before after : List Exanic} (mine : e.id = h)
    (first : ∀ e' ∈ before, e'.id ≠ h) (later : ∀ e' ∈ after, e'.id ≠ h) :
    release (before ++ e :: after) h =
      if e.refCount - 1 > 0 then
        (before ++ { e with refCount := e.refCount - 1 } :: after, [.use (.exanic h)])
      else (before ++ after, closeDevice h e.pointers) := by
  have found : (before ++ e :: after).find? (·.id = h) = some e :=
    List.find?_eq_some_iff_append.2 ⟨by simpa using mine, before, after, rfl, by simpa using first⟩
  have others : ∀ {part : List Exanic}, (∀ e' ∈ part, e'.id ≠ h) →
      (part.map fun e' => if e'.id = h then { e' with refCount := e'.refCount - 1 } else e') = part :=
    fun apart => (List.map_congr_left fun e' inside => if_neg (apart e' inside)).trans
      (List.map_id' _)
  rw [release, found]
  dsimp only
  split
  · rw [List.map_append, List.map_cons, others first, others later, if_pos mine]
  · rw [List.eraseP_append_right _ (by simpa using first),
      List.eraseP_cons_of_pos (by simpa using mine)]

theorem forall_mem_middle {P : Exanic → Prop} {e : Exanic} {before after : List Exanic} :
    (∀ e' ∈ before ++ e :: after, P e') ↔ P e ∧ ∀ e' ∈ before ++ after, P e' := by
  simp only [List.forall_mem_append, List.forall_mem_cons]
  exact and_left_comm

section Released

variable {e : Exanic} {before after : List Exanic}

/-- The other handles have the references they had. -/
theorem Counts.others (counts : Counts (before ++ e :: after) (h ::ₘ refs))
    (others : ∀ e' ∈ before ++ after, e'.id ≠ h) :
    (∀ e' ∈ before ++ after, e'.refCount.toInt = refs.count e'.id) ∧
      (∀ e' ∈ before ++ after, e'.id ∈ refs) ∧ ∀ e' ∈ before ++ after, .registers ∈ e'.pointers := by
  refine ⟨fun e' member => ?_, fun e' member => ?_, (forall_mem_middle.1 counts.registers).2⟩
  · rw [(forall_mem_middle.1 counts.counted).2 e' member,
      Multiset.count_cons_of_ne (others e' member)]
  · have wanted := (forall_mem_middle.1 counts.wanted).2 e' member
    exact (Multiset.mem_cons.1 wanted).resolve_left (others e' member)

/-- A reference less. -/
theorem Counts.decrement (counts : Counts (before ++ e :: after) (h ::ₘ refs)) (mine : e.id = h)
    (others : ∀ e' ∈ before ++ after, e'.id ≠ h) (less : (e.refCount - 1).toInt = refs.count h)
    (more : 0 < refs.count h) :
    Counts (before ++ { e with refCount := e.refCount - 1 } :: after) refs := by
  obtain ⟨counted, wanted, registers⟩ := counts.others others
  have ids : (before ++ { e with refCount := e.refCount - 1 } :: after).map Exanic.id =
      (before ++ e :: after).map Exanic.id := by simp
  refine ⟨?_, forall_mem_middle.2 ⟨?_, counted⟩, ?_, forall_mem_middle.2 ⟨?_, wanted⟩,
    forall_mem_middle.2 ⟨(forall_mem_middle.1 counts.registers).1, registers⟩⟩
  · rw [ids]
    exact counts.once
  · rw [less, ← mine]
  · intro h' member
    obtain ⟨e', there, same⟩ := counts.live h' (Multiset.mem_cons_of_mem member)
    have listed : h' ∈ (before ++ e :: after).map Exanic.id := same ▸ List.mem_map_of_mem there
    rw [← ids] at listed
    exact List.mem_map.1 listed
  · exact Multiset.count_pos.1 (mine ▸ more)

/-- The last reference is gone, and the handle with it. -/
theorem Counts.close (counts : Counts (before ++ e :: after) (h ::ₘ refs)) (mine : e.id = h)
    (others : ∀ e' ∈ before ++ after, e'.id ≠ h) (gone : h ∉ refs) :
    Counts (before ++ after) refs := by
  obtain ⟨counted, wanted, registers⟩ := counts.others others
  refine ⟨counts.once.sublist (by simp), counted, ?_, wanted, registers⟩
  intro h' member
  obtain ⟨e', there, same⟩ := counts.live h' (Multiset.mem_cons_of_mem member)
  refine ⟨e', ?_, same⟩
  simp only [List.mem_append, List.mem_cons] at there ⊢
  rcases there with there | rfl | there
  · exact .inl there
  · exact absurd (mine.symm.trans same ▸ member) gone
  · exact .inr there

end Released

theorem Counts.release (counts : Counts list (h ::ₘ refs)) : Counts (release list h).1 refs := by
  obtain ⟨e, before, after, rfl, mine, first, later⟩ := counts.split (Multiset.mem_cons_self h refs)
  have count : e.refCount.toInt = ((refs.count h + 1 : ℕ) : ℤ) := by
    rw [counts.counted e (by simp), mine, Multiset.count_cons_self]
  have less : (e.refCount - 1).toInt = refs.count h := toInt_sub_one count
  have others : ∀ e' ∈ before ++ after, e'.id ≠ h := List.forall_mem_append.2 ⟨first, later⟩
  rw [release_split mine first later]
  split
  next more =>
    rw [gt_iff_lt, Int32.lt_iff_toInt_lt, less, Int32.toInt_zero] at more
    exact counts.decrement mine others less (by omega)
  next last =>
    rw [gt_iff_lt, Int32.lt_iff_toInt_lt, less, Int32.toInt_zero] at last
    exact counts.close mine others (Multiset.count_eq_zero.1 (by omega))

end Counts

/-! ## Resources -/

def Exanic.owns (e : Exanic) : Multiset Resource := Handle.owns e.id e.pointers

def estate (list : List Exanic) : Multiset Resource := (list.map Exanic.owns).sum

def Rx.owns (rx : Rx) : Multiset Resource :=
  .rx rx.id ::ₘ .ring rx.id ::ₘ Lib.filterBuffer rx.id rx.bufferNumber

def Tx.owns (tx : Tx) : Multiset Resource :=
  {.txBuffer tx.id, .feedbackSlot tx.id, .offsets tx.id, .tx tx.id}

/-- What the process has got and not given back. -/
def Lib.owned (lib : Lib) : Multiset Resource :=
  estate lib.list + (lib.rxs.map Rx.owns).sum + (lib.txs.map Tx.owns).sum + lib.lost

section Estate

variable {list : List Exanic} {refs : Multiset ℕ} {h : ℕ} {u : Multiset Resource}

theorem estate_cons (e : Exanic) (list : List Exanic) : estate (e :: list) = e.owns + estate list := by
  rw [estate, List.map_cons, List.sum_cons]
  rfl

theorem estate_append (before after : List Exanic) :
    estate (before ++ after) = estate before + estate after := by
  rw [estate, List.map_append, List.sum_append]
  rfl

theorem estate_retain (list : List Exanic) (h : ℕ) : estate (retain list h) = estate list :=
  congrArg List.sum (map_recount (· + 1) (fun _ => rfl) list h)

theorem mem_estate {e : Exanic} (member : e ∈ list) {r : Resource} (mine : r ∈ e.owns) :
    r ∈ estate list := by
  obtain ⟨before, after, rfl⟩ := List.append_of_mem member
  rw [estate_append, estate_cons]
  simp [mine]

theorem Counts.exanic_mem (counts : Counts list refs) (there : h ∈ refs) : .exanic h ∈ estate list := by
  obtain ⟨e, member, rfl⟩ := counts.live h there
  exact mem_estate member (Multiset.mem_cons_self _ _)

theorem Counts.fd_mem (counts : Counts list refs) (there : h ∈ refs) : .fd h ∈ estate list := by
  obtain ⟨e, member, rfl⟩ := counts.live h there
  exact mem_estate member (Multiset.mem_cons_of_mem (Multiset.mem_cons_self _ _))

/-- Names are compared in handles that are there. -/
theorem goes_visited (list : List Exanic) (deviceName : CStr) (u : Multiset Resource) :
    Goes (estate list + u) (visited list deviceName) (estate list + u) := by
  refine Goes.uses fun effect member => ?_
  obtain ⟨e, there, rfl⟩ := List.mem_map.1 member
  refine ⟨_, Multiset.mem_add.2 (.inl (mem_estate ?_ (Multiset.mem_cons_self _ _))), rfl⟩
  rcases List.mem_append.1 there with before | found
  · exact (List.takeWhile_subset _) before
  · exact List.mem_of_find?_eq_some (Option.mem_toList.1 found)

theorem acquire_notMem_release (list : List Exanic) (h : ℕ) (r : Resource) :
    .acquire r ∉ (release list h).2 := by
  unfold release
  split
  · simp
  · split
    · simp
    · exact acquire_notMem_closeDevice h _ r

/-- The last reference closes the device, and the others only count. -/
theorem Counts.release_goes (counts : Counts list (h ::ₘ refs)) (u : Multiset Resource) :
    Goes (estate list + u) (Handle.release list h).2 (estate (Handle.release list h).1 + u) := by
  have mine : .exanic h ∈ estate list := counts.exanic_mem (Multiset.mem_cons_self h refs)
  obtain ⟨e, before, after, rfl, same, first, later⟩ := counts.split (Multiset.mem_cons_self h refs)
  rw [release_split same first later]
  split
  · refine .use (Multiset.mem_add.2 (.inl mine)) ?_
    have kept : estate (before ++ { e with refCount := e.refCount - 1 } :: after) =
        estate (before ++ e :: after) := by
      rw [estate_append, estate_append, estate_cons, estate_cons]
      rfl
    rw [kept]
    exact .nil _
  · have order : estate (before ++ e :: after) + u =
        Handle.owns h e.pointers + (estate (before ++ after) + u) := by
      rw [estate_append, estate_append, estate_cons, Exanic.owns, same]
      abel
    have closed := (closeDevice_goes (h := h) (counts.registers e (by simp))).frame
      (u := estate (before ++ after) + u)
      fun r member => absurd member (acquire_notMem_closeDevice h _ r)
    rw [zero_add] at closed
    rwa [order]

end Estate

/-! ## Every operation -/

/-- What the library has taken is what its objects own, and the references are counted. -/
structure Lib.Inv (lib : Lib) : Prop where
  goes : Goes 0 lib.effects lib.owned
  fresh : ∀ r ∈ lib.owned, r.id < lib.next
  counts : Counts lib.list lib.refs

theorem Lib.inv_empty : Lib.empty.Inv where
  goes := .nil _
  fresh := fun r member => absurd member (Multiset.notMem_zero r)
  counts := ⟨List.nodup_nil, by simp [Lib.empty], by simp [Lib.empty, Lib.refs], by simp [Lib.empty],
    by simp [Lib.empty]⟩

section Ops

variable {lib : Lib} {h : ℕ}

/-- An operation that only appends effects. -/
theorem Lib.Inv.after (inv : lib.Inv) {lib' : Lib} {es : Effects}
    (effects : lib'.effects = lib.effects ++ es) (goes : Goes lib.owned es lib'.owned)
    (later : lib.next ≤ lib'.next) (fresh : ∀ r, .acquire r ∈ es → r.id < lib'.next)
    (counts : Counts lib'.list lib'.refs) : lib'.Inv where
  goes := effects ▸ inv.goes.append goes
  fresh := fun r member => (goes.mem member).elim
    (fun old => Nat.lt_of_lt_of_le (inv.fresh r old) later) (fresh r)
  counts := counts

/-- The number that comes next is not in use. -/
theorem Lib.Inv.unused (inv : lib.Inv) {r : Resource} (new : r.id = lib.next) : r ∉ lib.owned :=
  fun member => Nat.lt_irrefl _ (new ▸ inv.fresh r member)

theorem Lib.Inv.id_lt (inv : lib.Inv) {e : Exanic} (member : e ∈ lib.list) : e.id < lib.next := by
  have mine : .exanic e.id ∈ estate lib.list := mem_estate member (Multiset.mem_cons_self _ _)
  refine inv.fresh (.exanic e.id) ?_
  simp only [Lib.owned, Multiset.mem_add]
  exact .inl (.inl (.inl mine))

theorem Lib.mem_refs (held : h ∈ lib.client) : h ∈ lib.refs := by
  simp only [Lib.refs, Multiset.mem_add]
  exact .inl (.inl (.inl held))

theorem Lib.owned_eq (lib : Lib) : lib.owned =
    estate lib.list + ((lib.rxs.map Rx.owns).sum + (lib.txs.map Tx.owns).sum + lib.lost) := by
  rw [Lib.owned]
  abel

/-- Any reference is to a handle that is open. -/
theorem Lib.Inv.exanic_mem (inv : lib.Inv) (there : h ∈ lib.refs) : .exanic h ∈ lib.owned := by
  rw [Lib.owned_eq, Multiset.mem_add]
  exact .inl (inv.counts.exanic_mem there)

theorem Lib.Inv.fd_mem (inv : lib.Inv) (there : h ∈ lib.refs) : .fd h ∈ lib.owned := by
  rw [Lib.owned_eq, Multiset.mem_add]
  exact .inl (inv.counts.fd_mem there)

theorem Lib.Inv.retainHandle (inv : lib.Inv) (held : h ∈ lib.client) (room : lib.Room h) :
    (lib.retainHandle h).Inv := by
  have there := Lib.mem_refs held
  have same : (lib.retainHandle h).owned = lib.owned := by
    simp only [Lib.owned, Lib.retainHandle, estate_retain]
  refine inv.after rfl ?_ le_rfl (by simp) ?_
  · rw [same]
    exact .use (inv.exanic_mem there) (.nil _)
  · have refs : (lib.retainHandle h).refs = h ::ₘ lib.refs := by
      simp only [Lib.refs, Lib.retainHandle, Multiset.cons_add]
    rw [refs]
    exact inv.counts.retain there room

theorem Lib.Inv.releaseHandle (inv : lib.Inv) (held : h ∈ lib.client) : (lib.releaseHandle h).Inv := by
  have refs : lib.refs = h ::ₘ (lib.releaseHandle h).refs := by
    simp only [Lib.refs, Lib.releaseHandle, ← Multiset.cons_add, Multiset.cons_erase held]
  have counts := refs ▸ inv.counts
  have goes := counts.release_goes
    ((lib.rxs.map Rx.owns).sum + (lib.txs.map Tx.owns).sum + lib.lost)
  have owned : (lib.releaseHandle h).owned = _ := Lib.owned_eq _
  refine inv.after rfl ?_ le_rfl ?_ counts.release
  · rw [Lib.owned_eq, owned]
    exact goes
  · exact fun r member => absurd member (acquire_notMem_release _ _ r)

/-- Names are compared in handles the process has. -/
theorem Lib.goes_visited (lib : Lib) (deviceName : CStr) :
    Goes lib.owned (visited lib.list deviceName) lib.owned := by
  rw [Lib.owned_eq]
  exact Handle.goes_visited _ _ _

theorem acquire_notMem_visited (list : List Exanic) (deviceName : CStr) (r : Resource) :
    .acquire r ∉ visited list deviceName := by
  simp [visited]

theorem Lib.Inv.acquireHandle (inv : lib.Inv) (deviceName : CStr) (c : DeviceCalls)
    (room : ∀ e ∈ lib.list.find? (·.isFor deviceName), lib.Room e.id) :
    (lib.acquireHandle deviceName c).Inv := by
  have looked := lib.goes_visited deviceName
  have apart : ∀ {es : Effects}, About lib.next es → ∀ r, .acquire r ∈ es → r ∉ lib.owned :=
    fun about r member => inv.unused (about r member)
  have fresh : ∀ {es : Effects}, About lib.next es → ∀ r,
      .acquire r ∈ visited lib.list deviceName ++ es → r.id < lib.next + 1 := by
    intro es about r member
    have new := (List.mem_append.1 member).resolve_left (acquire_notMem_visited _ _ r)
    exact Nat.lt_succ_of_le (about r new).le
  unfold Lib.acquireHandle
  split
  next e found =>
    have there := inv.counts.wanted e (List.mem_of_find?_eq_some found)
    refine inv.after rfl ?_ le_rfl (fun r member => absurd member (acquire_notMem_visited _ _ r)) ?_
    · simp only [Lib.owned, estate_retain] at looked ⊢
      exact looked
    · simp only [Lib.refs, Multiset.cons_add]
      exact inv.counts.retain there (room e found)
  next =>
    have opens := openDevice_goes c lib.next
    split
    next es failed =>
      rw [failed] at opens
      obtain ⟨goes, about⟩ := opens
      refine inv.after rfl (looked.append ?_) (Nat.le_succ _) (fresh about) inv.counts
      have framed := goes.frame (apart about)
      rw [zero_add, add_comm] at framed
      simp only [Lib.owned] at framed ⊢
      rwa [← add_assoc]
    next o opened =>
      rw [opened] at opens
      obtain ⟨goes, about, registers, -⟩ := opens
      refine inv.after rfl (looked.append ?_) (Nat.le_succ _) (fresh about) ?_
      · have framed := goes.frame (apart about)
        rw [zero_add] at framed
        simp only [Lib.owned, estate_cons, Exanic.owns] at framed ⊢
        simpa only [add_assoc] using framed
      · simp only [Lib.refs, Multiset.cons_add]
        refine inv.counts.insert ?_ rfl registers
        intro old
        obtain ⟨e, member, same⟩ := List.mem_map.1 old
        exact Nat.lt_irrefl _ (same ▸ inv.id_lt member)

/-- The filter buffer is allocated, if it is one. -/
theorem goes_allocation {s : Multiset Resource} {x n : ℕ} (fd : .fd h ∈ s)
    (new : .filterBuffer x ∉ s) :
    Goes s (if n > 0 then [.use (.fd h), .acquire (.filterBuffer x)] else [])
      (Lib.filterBuffer x n + s) := by
  unfold Lib.filterBuffer
  split
  · rw [Multiset.singleton_add]
    exact .use fd (.acquire new (.nil _))
  · rw [zero_add]
    exact .nil _

theorem about_allocation (h x n : ℕ) :
    About x (if n > 0 then [.use (.fd h), .acquire (.filterBuffer x)] else []) := by
  split
  · exact .use (.acquire rfl .nil)
  · exact .nil

theorem about_acquisition (h n : ℕ) {x : ℕ} {es : Effects} (about : About x es) :
    About x (.use (.exanic h) ::
      ((if n > 0 then [.use (.fd h), .acquire (.filterBuffer x)] else []) ++ es)) :=
  .use ((about_allocation h x n).append about)

theorem mem_filterBuffer {x n : ℕ} {r : Resource} (member : r ∈ Lib.filterBuffer x n) :
    r = .filterBuffer x := by
  unfold Lib.filterBuffer at member
  split at member
  · exact Multiset.mem_singleton.1 member
  · exact absurd member (Multiset.notMem_zero r)

/-- What is acquired with the next number is fresh afterwards. -/
theorem About.fresh {x : ℕ} {es : Effects} (about : About x es) (r : Resource)
    (member : .acquire r ∈ es) : r.id < x + 1 :=
  Nat.lt_succ_of_le (about r member).le

theorem Lib.Inv.acquireRxBuffer (inv : lib.Inv) (held : h ∈ lib.client) (room : lib.Room h)
    (c : Lib.RxCalls) : (lib.acquireRxBuffer h c).Inv := by
  have there := Lib.mem_refs held
  have exanic := inv.exanic_mem there
  have fd := inv.fd_mem there
  have alloc : Goes lib.owned _ (Lib.filterBuffer lib.next c.bufferNumber + lib.owned) :=
    goes_allocation fd (inv.unused rfl)
  have fd' : .fd h ∈ Lib.filterBuffer lib.next c.bufferNumber + lib.owned :=
    Multiset.mem_add.2 (.inr fd)
  have ring : .ring lib.next ∉ Lib.filterBuffer lib.next c.bufferNumber + lib.owned := by
    rw [Multiset.mem_add]
    rintro (buffer | old)
    · cases mem_filterBuffer buffer
    · exact inv.unused rfl old
  have rx : .rx lib.next ∉
      .ring lib.next ::ₘ (Lib.filterBuffer lib.next c.bufferNumber + lib.owned) := by
    rw [Multiset.mem_cons, Multiset.mem_add]
    rintro (same | buffer | old)
    · cases same
    · cases mem_filterBuffer buffer
    · exact inv.unused rfl old
  unfold Lib.acquireRxBuffer
  dsimp only
  split
  · exact inv.after rfl (.use exanic (.nil _)) le_rfl (by simp) inv.counts
  split
  · exact inv.after rfl (.use exanic (.use fd (.nil _))) le_rfl (by simp) inv.counts
  split
  · refine inv.after rfl (.use exanic (alloc.append (.use fd' (.done ?_)))) (Nat.le_succ _)
      (about_acquisition h _ (.use .nil)).fresh inv.counts
    simp only [Lib.owned]
    abel
  have retained : Counts (retain lib.list h) (h ::ₘ lib.refs) := inv.counts.retain there room
  split
  · refine inv.after rfl (.use exanic (alloc.append (.use fd' (.acquire ring (.done ?_)))))
      (Nat.le_succ _) (about_acquisition h _ ?_).fresh ?_
    · simp only [Lib.owned, estate_retain, ← Multiset.singleton_add]
      abel
    · exact .use (.acquire rfl .nil)
    · simpa only [Lib.refs, Multiset.add_cons] using retained
  · refine inv.after rfl (.use exanic (alloc.append (.use fd' (.acquire ring (.acquire rx
      (.use (by simp) (.done ?_)))))))
      (Nat.le_succ _) (about_acquisition h _ ?_).fresh ?_
    · simp only [Lib.owned, estate_retain, Rx.owns, List.map_cons, List.sum_cons,
        ← Multiset.singleton_add]
      abel
    · exact .use (.acquire rfl (.acquire rfl (.use .nil)))
    · simpa only [Lib.refs, List.map_cons, ← Multiset.cons_coe, Multiset.add_cons,
        Multiset.cons_add] using retained

/-- A buffer that the process has, apart from the others. -/
theorem Lib.rxs_erase {rx : Rx} (mine : rx ∈ lib.rxs) :
    (lib.rxs.map Rx.owns).sum = rx.owns + ((lib.rxs.erase rx).map Rx.owns).sum ∧
      (lib.rxs.map Rx.exanic : Multiset ℕ) =
        rx.exanic ::ₘ ((lib.rxs.erase rx).map Rx.exanic : Multiset ℕ) := by
  have order := List.perm_cons_erase mine
  exact ⟨(order.map Rx.owns).sum_eq, Multiset.coe_eq_coe.2 (order.map Rx.exanic)⟩

/-- The filter buffer is given back, if it is one and the driver takes it. -/
theorem goes_deallocation {s : Multiset Resource} {x n : ℕ} (freed : Bool) (exanic : .exanic h ∈ s)
    (fd : .fd h ∈ s) :
    Goes (Lib.filterBuffer x n + s)
      (if n > 0 then [.use (.exanic h), .use (.fd h)] ++ tryRelease freed (.filterBuffer x) else [])
      ((if n > 0 then refused freed (.filterBuffer x) else 0) + s) := by
  unfold Lib.filterBuffer
  split
  · rw [Multiset.singleton_add]
    have given : Goes (.filterBuffer x ::ₘ s) (tryRelease freed (.filterBuffer x) ++ [])
        (refused freed (.filterBuffer x) + s) := .tryRelease (.nil _)
    rw [List.append_nil] at given
    exact .use (Multiset.mem_cons_of_mem exanic) (.use (Multiset.mem_cons_of_mem fd) given)
  · rw [zero_add]
    exact .nil _

theorem acquire_notMem_deallocation (h x n : ℕ) (freed : Bool) (r : Resource) : .acquire r ∉
    (if n > 0 then [.use (.exanic h), .use (.fd h)] ++ tryRelease freed (.filterBuffer x) else [] :
      Effects) := by
  split
  · simp [acquire_notMem_tryRelease]
  · exact List.not_mem_nil

theorem Lib.Inv.releaseRxBuffer (inv : lib.Inv) {rx : Rx} (mine : rx ∈ lib.rxs) (freed : Bool) :
    (lib.releaseRxBuffer rx freed).Inv := by
  obtain ⟨resources, references⟩ := Lib.rxs_erase mine
  have refs : lib.refs = rx.exanic ::ₘ (lib.releaseRxBuffer rx freed).refs := by
    simp only [Lib.refs, Lib.releaseRxBuffer, references, Multiset.add_cons, Multiset.cons_add]
  have counts := refs ▸ inv.counts
  have there := Multiset.mem_cons_self rx.exanic (lib.releaseRxBuffer rx freed).refs
  have exanic := counts.exanic_mem there
  have fd := counts.fd_mem there
  have before : lib.owned = .ring rx.id ::ₘ (Lib.filterBuffer rx.id rx.bufferNumber +
      (estate lib.list + .rx rx.id ::ₘ (((lib.rxs.erase rx).map Rx.owns).sum +
        (lib.txs.map Tx.owns).sum + lib.lost))) := by
    simp only [Lib.owned, resources, Rx.owns, ← Multiset.singleton_add]
    abel
  have after : (lib.releaseRxBuffer rx freed).owned = estate (release lib.list rx.exanic).1 +
      ((if rx.bufferNumber > 0 then refused freed (.filterBuffer rx.id) else 0) +
        (((lib.rxs.erase rx).map Rx.owns).sum + (lib.txs.map Tx.owns).sum + lib.lost)) := by
    simp only [Lib.owned, Lib.releaseRxBuffer]
    abel
  refine inv.after rfl ?_ le_rfl ?_ counts.release
  · rw [before, after]
    refine .use (by simp) (.release ((goes_deallocation freed (by simp [exanic])
      (by simp [fd])).append ?_))
    rw [← add_assoc, add_comm _ (estate lib.list), add_assoc]
    refine (counts.release_goes _).append ?_
    rw [Multiset.add_cons, Multiset.add_cons]
    exact .release (.nil _)
  · intro r member
    simp only [List.mem_cons, List.mem_append, reduceCtorEq, List.not_mem_nil, or_false,
      false_or] at member
    rcases member with deallocates | closes
    · exact absurd deallocates (acquire_notMem_deallocation _ _ _ _ r)
    · exact absurd closes (acquire_notMem_release _ _ r)

/-- The buffer is given back, if the driver takes it, and the bookkeeping with it. -/
theorem goes_freeTxBuffer (ok : Bool) (t : ℕ) (s : Multiset Resource) :
    Goes (.txBuffer t ::ₘ .tx t ::ₘ s) (tryRelease ok (.txBuffer t) ++ [.release (.tx t)])
      (refused ok (.txBuffer t) + s) := by
  refine .tryRelease ?_
  rw [Multiset.add_cons]
  exact .release (.nil _)

theorem Lib.Inv.acquireTxBuffer (inv : lib.Inv) (held : h ∈ lib.client) (room : lib.Room h)
    (c : Lib.TxCalls)
    (feedback : c.allocBuffer = true → ∀ e ∈ lib.list, e.id = h → .feedback ∈ e.pointers) :
    (lib.acquireTxBuffer h c).Inv := by
  have there := Lib.mem_refs held
  have exanic := inv.exanic_mem there
  have fd := inv.fd_mem there
  have tx : .tx lib.next ∉ lib.owned := inv.unused rfl
  have buffer : .txBuffer lib.next ∉ lib.owned := inv.unused rfl
  have slot : .feedbackSlot lib.next ∉ lib.owned := inv.unused rfl
  have offsets : .offsets lib.next ∉ lib.owned := inv.unused rfl
  have retained : Counts (retain lib.list h) (h ::ₘ lib.refs) := inv.counts.retain there room
  unfold Lib.acquireTxBuffer
  dsimp only
  split
  · exact inv.after rfl (.use exanic (.nil _)) le_rfl (by simp) inv.counts
  split
  · exact inv.after rfl (.use exanic (.acquire tx (.use (by simp [fd]) (.release (.nil _)))))
      (Nat.le_succ _) (About.fresh (.use (.acquire rfl (.use (.release .nil))))) inv.counts
  split
  · have freed := goes_freeTxBuffer c.frees.buffer lib.next lib.owned
    refine inv.after rfl (.use exanic (.acquire tx (.use (by simp [fd]) (.acquire (by simp [buffer])
      (.use (by simp [fd]) (.use (by simp [fd]) (freed.ends ?_)))))))
      (Nat.le_succ _) (About.fresh ?_) inv.counts
    · simp only [Lib.owned]
      abel
    · exact .use (.acquire rfl (.use (.acquire rfl (.use (.use (.tryRelease _ (.release .nil)))))))
  next allocated _ =>
    have mapped : .map h .feedback ∈ lib.owned := by
      obtain ⟨e, member, same⟩ := inv.counts.live h there
      have mine : .map h .feedback ∈ e.owns := by
        refine Multiset.mem_cons_of_mem (Multiset.mem_cons_of_mem (mem_maps.2 ⟨_, ?_, by rw [same]⟩))
        exact feedback (by simpa using allocated) e member same
      rw [Lib.owned_eq, Multiset.mem_add]
      exact .inl (mem_estate member mine)
    split
    · have freed := goes_freeTxBuffer c.frees.buffer lib.next
        (refused c.frees.feedbackSlot (.feedbackSlot lib.next) + lib.owned)
      rw [← Multiset.add_cons, ← Multiset.add_cons] at freed
      refine inv.after rfl (.use exanic (.acquire tx (.use (by simp [fd]) (.acquire (by simp [buffer])
        (.use (by simp [fd]) (.acquire (by simp [slot]) (.use (by simp [fd]) (.tryRelease
          (.use (by simp [fd]) (freed.ends ?_)))))))))) (Nat.le_succ _)
        (About.fresh ?_) ?_
      · simp only [Lib.owned, estate_retain]
        abel
      · exact .use (.acquire rfl (.use (.acquire rfl (.use (.acquire rfl (.use (.tryRelease _ (.use
          (.tryRelease _ (.release .nil))))))))))
      · simpa only [Lib.refs, Multiset.add_cons] using retained
    · refine inv.after rfl (.use exanic (.acquire tx (.use (by simp [fd]) (.acquire (by simp [buffer])
        (.use (by simp [fd]) (.acquire (by simp [slot]) (.acquire (by simp [offsets])
          (.use (by simp [mapped]) (.done ?_))))))))) (Nat.le_succ _) (About.fresh ?_) ?_
      · simp only [Lib.owned, estate_retain, Tx.owns, List.map_cons, List.sum_cons,
          Multiset.insert_eq_cons, ← Multiset.singleton_add]
        abel
      · exact .use (.acquire rfl (.use (.acquire rfl (.use (.acquire rfl (.acquire rfl (.use
          .nil)))))))
      · simpa only [Lib.refs, List.map_cons, ← Multiset.cons_coe, Multiset.add_cons,
          Multiset.cons_add] using retained

/-- A transmit buffer that the process has, apart from the others. -/
theorem Lib.txs_erase {tx : Tx} (mine : tx ∈ lib.txs) :
    (lib.txs.map Tx.owns).sum = tx.owns + ((lib.txs.erase tx).map Tx.owns).sum ∧
      (lib.txs.map Tx.exanic : Multiset ℕ) =
        tx.exanic ::ₘ ((lib.txs.erase tx).map Tx.exanic : Multiset ℕ) := by
  have order := List.perm_cons_erase mine
  exact ⟨(order.map Tx.owns).sum_eq, Multiset.coe_eq_coe.2 (order.map Tx.exanic)⟩

theorem Lib.Inv.releaseTxBuffer (inv : lib.Inv) {tx : Tx} (mine : tx ∈ lib.txs)
    (frees : Lib.TxFrees) : (lib.releaseTxBuffer tx frees).Inv := by
  obtain ⟨resources, references⟩ := Lib.txs_erase mine
  have refs : lib.refs = tx.exanic ::ₘ (lib.releaseTxBuffer tx frees).refs := by
    simp only [Lib.refs, Lib.releaseTxBuffer, references, Multiset.add_cons, Multiset.cons_add]
  have counts := refs ▸ inv.counts
  have there := Multiset.mem_cons_self tx.exanic (lib.releaseTxBuffer tx frees).refs
  have exanic := counts.exanic_mem there
  have fd := counts.fd_mem there
  have before : lib.owned = .txBuffer tx.id ::ₘ .feedbackSlot tx.id ::ₘ (estate lib.list +
      .offsets tx.id ::ₘ .tx tx.id ::ₘ ((lib.rxs.map Rx.owns).sum +
        ((lib.txs.erase tx).map Tx.owns).sum + lib.lost)) := by
    simp only [Lib.owned, resources, Tx.owns, Multiset.insert_eq_cons, ← Multiset.singleton_add]
    abel
  have after : (lib.releaseTxBuffer tx frees).owned = estate (release lib.list tx.exanic).1 +
      (refused frees.feedbackSlot (.feedbackSlot tx.id) + (refused frees.buffer (.txBuffer tx.id) +
        ((lib.rxs.map Rx.owns).sum + ((lib.txs.erase tx).map Tx.owns).sum + lib.lost))) := by
    simp only [Lib.owned, Lib.releaseTxBuffer]
    abel
  refine inv.after rfl ?_ le_rfl ?_ counts.release
  · rw [before, after]
    refine .use (by simp) (.use (by simp [exanic]) (.use (by simp [fd]) (.tryRelease
      (.use (by simp [fd]) ?_))))
    rw [Multiset.add_cons]
    refine .tryRelease ?_
    rw [add_left_comm _ (estate lib.list), add_left_comm _ (estate lib.list)]
    refine (counts.release_goes _).append ?_
    simp only [Multiset.add_cons]
    exact .release (.release (.nil _))
  · intro r member
    simp only [List.cons_append, List.nil_append, List.mem_cons, List.mem_append, reduceCtorEq,
      List.not_mem_nil, acquire_notMem_tryRelease, or_false, false_or] at member
    exact absurd member (acquire_notMem_release _ _ r)

end Ops

/-! ## Whole programs -/

theorem Lib.Inv.op {lib : Lib} (inv : lib.Inv) {op : Op} (fits : op.Fits lib) : (lib.op op).Inv := by
  cases op with
  | acquireHandle deviceName c => exact inv.acquireHandle deviceName c fits
  | retainHandle h => exact inv.retainHandle fits.1 fits.2
  | releaseHandle h => exact inv.releaseHandle fits
  | acquireRxBuffer h c => exact inv.acquireRxBuffer fits.1 fits.2 c
  | releaseRxBuffer rx freed => exact inv.releaseRxBuffer fits freed
  | acquireTxBuffer h c => exact inv.acquireTxBuffer fits.1 fits.2.1 c fits.2.2
  | releaseTxBuffer tx frees => exact inv.releaseTxBuffer fits frees

theorem Run.inv {ops : List Op} {lib : Lib} (run : Run ops lib) : lib.Inv := by
  induction run with
  | nil => exact Lib.inv_empty
  | snoc before fits ih => exact ih.op fits

/-- **The library uses and releases only what it has**, whatever fails and in whatever
order the program calls it; in the end it has what its objects own and what was lost. -/
theorem handles_sound {ops : List Op} {lib : Lib} (run : Run ops lib) :
    Custody.run (fun _ => false) lib.effects = some fun r => decide (r ∈ lib.owned) := by
  have goes := run.inv.goes.run Multiset.nodup_zero
  simpa using goes

/-! ## What is lost -/

/-- The call fails where it keeps something that nobody can give back. -/
def Op.Loses (lib : Lib) : Op → Prop
  | acquireHandle deviceName c =>
      lib.list.find? (·.isFor deviceName) = none ∧ c.loses = true
  | acquireRxBuffer _ c => c.portUsable = true ∧ (c.bufferNumber > 0 → c.alloc = true) ∧
      if c.mmap then c.malloc = false else c.bufferNumber > 0
  | releaseRxBuffer rx freed => rx.bufferNumber > 0 ∧ freed = false
  | acquireTxBuffer _ c => c.portUsable = true ∧ c.sizeAligned = true ∧ c.malloc = true ∧
      c.allocBuffer = true ∧
      if c.allocFeedback then c.calloc = false else c.frees.buffer = false
  | releaseTxBuffer _ frees => ¬ (frees.buffer = true ∧ frees.feedbackSlot = true)
  | retainHandle _ => False
  | releaseHandle _ => False

/-- The library after some operations. -/
def Lib.afterOps (ops : List Op) : Lib := ops.foldl Lib.op Lib.empty

theorem Lib.afterOps_concat (ops : List Op) (op : Op) :
    Lib.afterOps (ops ++ [op]) = (Lib.afterOps ops).op op := by
  simp [afterOps]

theorem Run.eq {ops : List Op} {lib : Lib} (run : Run ops lib) : lib = Lib.afterOps ops := by
  induction run with
  | nil => rfl
  | snoc before fits ih => rw [Lib.afterOps_concat, ← ih]

/-- No call of the program loses anything. -/
def NeverLoses (ops : List Op) : Prop :=
  ∀ before op after, ops = before ++ op :: after → ¬ op.Loses (Lib.afterOps before)

theorem neverLoses_concat (ops : List Op) (op : Op) :
    NeverLoses (ops ++ [op]) ↔ NeverLoses ops ∧ ¬ op.Loses (Lib.afterOps ops) := by
  constructor
  · intro never
    exact ⟨fun before op' after same => never before op' (after ++ [op]) (by simp [same]),
      never ops op [] rfl⟩
  · rintro ⟨never, last⟩ before op' after same
    rcases List.eq_nil_or_concat after with rfl | ⟨after, final, rfl⟩
    · obtain ⟨rfl, rfl⟩ := List.append_inj' same rfl |>.imp id List.singleton_inj.1
      exact last
    · refine never before op' after ?_
      have same' : ops ++ [op] = (before ++ op' :: after) ++ [final] := by simp [same]
      exact (List.append_inj' same' rfl).1

theorem DeviceCalls.lost_eq_zero_iff {c : DeviceCalls} {h : ℕ} :
    c.lost h = 0 ↔ ¬ c.loses = true := by
  unfold lost
  split
  next loses => simp [loses]
  next kept => simp [kept]

theorem Lib.filterBuffer_eq_zero {x n : ℕ} : filterBuffer x n = 0 ↔ ¬ n > 0 := by
  unfold filterBuffer
  split
  next some => simp [some]
  next none => simp [none]

section Losses

variable (lib : Lib)

theorem Lib.lost_acquireHandle (deviceName : CStr) (c : DeviceCalls) :
    ((lib.acquireHandle deviceName c).lost = 0 ∧
        (lib.acquireHandle deviceName c).lostRefs = 0) ↔
      (lib.lost = 0 ∧ lib.lostRefs = 0) ∧ ¬ (Op.acquireHandle deviceName c).Loses lib := by
  unfold acquireHandle Op.Loses
  cases found : lib.list.find? (·.isFor deviceName) with
  | some e =>
      refine (and_iff_left fun loses => ?_).symm
      exact Option.some_ne_none e (found.symm.trans loses.1)
  | none =>
      have opens := openDevice_goes c lib.next
      cases opened : openDevice c lib.next with
      | error es =>
          dsimp only
          rw [add_eq_zero, DeviceCalls.lost_eq_zero_iff, and_iff_right found]
          tauto
      | ok o =>
          rw [opened] at opens
          have kept : c.loses = false := opens.2.2.2
          simp [kept]

theorem Lib.lost_acquireRxBuffer (h : ℕ) (c : RxCalls) :
    ((lib.acquireRxBuffer h c).lost = 0 ∧ (lib.acquireRxBuffer h c).lostRefs = 0) ↔
      (lib.lost = 0 ∧ lib.lostRefs = 0) ∧ ¬ (Op.acquireRxBuffer h c).Loses lib := by
  obtain ⟨portUsable, bufferNumber, alloc, mmap, malloc⟩ := c
  have filter : ∀ x, filterBuffer x bufferNumber = 0 ↔ ¬ bufferNumber > 0 := fun x =>
    filterBuffer_eq_zero
  by_cases number : bufferNumber > 0 <;> cases portUsable <;> cases alloc <;> cases mmap <;>
    cases malloc <;>
    simp [acquireRxBuffer, Op.Loses, filter, number]

theorem Lib.lost_acquireTxBuffer (h : ℕ) (c : TxCalls) :
    ((lib.acquireTxBuffer h c).lost = 0 ∧ (lib.acquireTxBuffer h c).lostRefs = 0) ↔
      (lib.lost = 0 ∧ lib.lostRefs = 0) ∧ ¬ (Op.acquireTxBuffer h c).Loses lib := by
  obtain ⟨portUsable, sizeAligned, malloc, allocBuffer, allocFeedback, calloc, frees⟩ := c
  cases portUsable <;> cases sizeAligned <;> cases malloc <;> cases allocBuffer <;>
    cases allocFeedback <;> cases calloc <;> simp [acquireTxBuffer, Op.Loses, and_right_comm]

theorem Lib.lost_releaseRxBuffer (rx : Rx) (freed : Bool) :
    ((lib.releaseRxBuffer rx freed).lost = 0 ∧ (lib.releaseRxBuffer rx freed).lostRefs = 0) ↔
      (lib.lost = 0 ∧ lib.lostRefs = 0) ∧ ¬ (Op.releaseRxBuffer rx freed).Loses lib := by
  by_cases number : rx.bufferNumber > 0
  · simp [releaseRxBuffer, Op.Loses, number, and_right_comm]
  · simp [releaseRxBuffer, Op.Loses, number]

theorem Lib.lost_releaseTxBuffer (tx : Tx) (frees : TxFrees) :
    ((lib.releaseTxBuffer tx frees).lost = 0 ∧ (lib.releaseTxBuffer tx frees).lostRefs = 0) ↔
      (lib.lost = 0 ∧ lib.lostRefs = 0) ∧ ¬ (Op.releaseTxBuffer tx frees).Loses lib := by
  simp [releaseTxBuffer, Op.Loses, and_right_comm]

end Losses

/-- Nothing is lost in a step, or the call loses. -/
theorem Lib.lost_op (lib : Lib) (op : Op) :
    ((lib.op op).lost = 0 ∧ (lib.op op).lostRefs = 0) ↔
      (lib.lost = 0 ∧ lib.lostRefs = 0) ∧ ¬ op.Loses lib := by
  cases op with
  | acquireHandle deviceName c => exact lib.lost_acquireHandle deviceName c
  | acquireRxBuffer h c => exact lib.lost_acquireRxBuffer h c
  | acquireTxBuffer h c => exact lib.lost_acquireTxBuffer h c
  | retainHandle h => exact (and_iff_left not_false).symm
  | releaseHandle h => exact (and_iff_left not_false).symm
  | releaseRxBuffer rx freed => exact lib.lost_releaseRxBuffer rx freed
  | releaseTxBuffer tx frees => exact lib.lost_releaseTxBuffer tx frees

theorem Run.lost_iff {ops : List Op} {lib : Lib} (run : Run ops lib) :
    (lib.lost = 0 ∧ lib.lostRefs = 0) ↔ NeverLoses ops := by
  induction run with
  | nil => exact ⟨fun _ before op after same => by simp at same, fun _ => ⟨rfl, rfl⟩⟩
  | snoc before fits ih => rw [Lib.lost_op, ih, neverLoses_concat, before.eq]

/-- **Once the program has released all, the library has**, exactly if no call has
failed at one of the places of `Op.Loses`. -/
theorem released_iff {ops : List Op} {lib : Lib} (run : Run ops lib) (client : lib.client = 0)
    (rxs : lib.rxs = []) (txs : lib.txs = []) :
    Custody.run (fun _ => false) lib.effects = some (fun _ => false) ↔ NeverLoses ops := by
  have inv := run.inv
  have goes := inv.goes.run Multiset.nodup_zero
  have held : Custody.run (fun _ => false) lib.effects = some fun r => decide (r ∈ lib.owned) := by
    simpa using goes
  have refs : lib.refs = lib.lostRefs := by simp [Lib.refs, client, rxs, txs]
  have owned : lib.owned = estate lib.list + lib.lost := by simp [Lib.owned, rxs, txs]
  have nothing : (some (fun r => decide (r ∈ lib.owned)) : Option (Resource → Bool)) =
      some (fun _ => false) ↔ lib.owned = 0 := by
    rw [Option.some.injEq, funext_iff, Multiset.eq_zero_iff_forall_notMem]
    simp
  rw [held, nothing, ← run.lost_iff, owned, add_eq_zero]
  constructor
  · rintro ⟨list, lost⟩
    refine ⟨lost, Multiset.eq_zero_of_forall_notMem fun h member => ?_⟩
    have mine := inv.counts.exanic_mem (refs ▸ member)
    rw [list] at mine
    exact Multiset.notMem_zero _ mine
  · rintro ⟨lost, none⟩
    refine ⟨?_, lost⟩
    have empty : lib.list = [] := List.eq_nil_iff_forall_not_mem.2 fun e member => by
      have wanted := inv.counts.wanted e member
      rw [refs, none] at wanted
      exact Multiset.notMem_zero _ wanted
    rw [empty]
    rfl

/-! ## A program that releases its handle first -/

namespace Poles

/-- A card with all regions and no devkit. -/
def card : DeviceCalls := ⟨true, true, 1048576, 65536, none, none, fun _ => true, true⟩

def filterCalls : Lib.RxCalls := ⟨true, 3, true, true, true⟩

def bufferCalls : Lib.TxCalls := ⟨true, true, true, true, true, true, ⟨true, true⟩⟩

/-- A filter buffer and a transmit buffer outlive the reference of the program to their
handle. -/
def outlived : List Op :=
  [.acquireHandle "exanic0".toList card, .acquireRxBuffer 0 filterCalls,
    .acquireTxBuffer 0 bufferCalls, .releaseHandle 0, .releaseRxBuffer ⟨1, 0, 3⟩ true]

def sample (frees : Lib.TxFrees) : List Op := outlived ++ [.releaseTxBuffer ⟨2, 0⟩ frees]

theorem sample_run (frees : Lib.TxFrees) : Run (sample frees) (Lib.afterOps (sample frees)) := by
  have before : Run outlived (Lib.afterOps outlived) := Run.nil.follow (by decide)
  exact before.snoc (show ⟨2, 0⟩ ∈ (Lib.afterOps outlived).txs by decide)

-- The driver refuses to take the feedback slot back.
theorem handles_sound_sample :
    Custody.run (fun _ => false) (Lib.afterOps (sample ⟨true, false⟩)).effects =
      some fun r => decide (r ∈ (Lib.afterOps (sample ⟨true, false⟩)).owned) :=
  handles_sound (sample_run _)

theorem released_iff_sample :
    (Custody.run (fun _ => false) (Lib.afterOps (sample ⟨true, true⟩)).effects =
        some (fun _ => false) ↔ NeverLoses (sample ⟨true, true⟩)) ∧
      (Custody.run (fun _ => false) (Lib.afterOps (sample ⟨true, false⟩)).effects =
        some (fun _ => false) ↔ NeverLoses (sample ⟨true, false⟩)) ∧
      NeverLoses (sample ⟨true, true⟩) ∧ ¬ NeverLoses (sample ⟨true, false⟩) := by
  refine ⟨released_iff (sample_run _) (by decide) (by decide) (by decide),
    released_iff (sample_run _) (by decide) (by decide) (by decide), ?_, ?_⟩
  · rw [← (sample_run _).lost_iff]
    decide
  · rw [← (sample_run _).lost_iff]
    decide

end Poles

end ExanicCapture.Handle
