/-
# Firewall.Card -- how a rule gets into the card

A filter slot of the card is a control byte, one of four in a register, and 22 dwords
in which the bytes of mask and pattern alternate.  `exanic_set_firewall_filter_raw`
clears the control byte, loads the rule and sets the control byte, so at every moment
in between the card has the old rule, none, or the new one
(`exanicSetFirewallFilterRaw_throughout`).
-/
import ExanicCapture.Firewall.Parser
import ExanicCapture.Theory.Publish
import ExanicCapture.Theory.Words

namespace ExanicCapture.Firewall

set_option autoImplicit false

open Theory

/-! ## Registers -/

/-- `REG_EXANIC_INDEX(REG_EXANIC_FUNCTION_ID)`. -/
def regExanicFunctionId : ℕ := 8
/-- `EXANIC_FUNCTION_FIREWALL`. -/
def exanicFunctionFirewall : UInt32 := 1
/-- `REG_FIREWALL_INDEX`. -/
def regFirewallIndex (reg : ℕ) : ℕ := (0x0300 + reg * 4) / 4
def regFirewallNumFilters : ℕ := 0
def regFirewallState : ℕ := 1
def regFirewallFilterControl : ℕ := 32
/-- `FIREWALL_FILTER_INDEX`. -/
def firewallFilterIndex (filter : ℕ) : ℕ := 128 * filter / 4
/-- `EXANIC_FILTER_NUM_DWORDS`. -/
def exanicFilterNumDwords : ℕ := 11
/-- `EXANIC_FILTER_ENABLE`. -/
def exanicFilterEnable : UInt8 := 1
/-- `EXANIC_FILTER_ALLOW`. -/
def exanicFilterAllow : UInt8 := 2

/-- The regions of the card that a firewall uses. -/
structure Card where
  registers : ℕ → UInt32
  filters : ℕ → UInt32

/-- What the library does to the card, in the order in which the card sees it. -/
inductive Access where
  | andRegister (index : ℕ) (bits : UInt32)
  | orRegister (index : ℕ) (bits : UInt32)
  | setRegister (index : ℕ) (value : UInt32)
  | setFilter (index : ℕ) (value : UInt32)

def Access.run (c : Card) : Access → Card
  | andRegister index bits =>
      { c with registers := Function.update c.registers index (c.registers index &&& bits) }
  | orRegister index bits =>
      { c with registers := Function.update c.registers index (c.registers index ||| bits) }
  | setRegister index value => { c with registers := Function.update c.registers index value }
  | setFilter index value => { c with filters := Function.update c.filters index value }

/-- Two bytes of the mask and two of the pattern. -/
def interleaved (pattern mask : ℕ → UInt8) (i : ℕ) : UInt32 :=
  placed (mask (2 * i)) 0 ||| placed (pattern (2 * i)) 1 ||| placed (mask (2 * i + 1)) 2 |||
    placed (pattern (2 * i + 1)) 3

/-- The accesses that load a rule. -/
def load (slot : ℕ) (pattern mask : ℕ → UInt8) : List Access :=
  (List.range (2 * exanicFilterNumDwords)).map fun i =>
    .setFilter (firewallFilterIndex slot + i) (interleaved pattern mask i)

/-- `exanic_set_firewall_filter_raw`. -/
def exanicSetFirewallFilterRaw (slot : ℕ) (pattern mask : ℕ → UInt8) (ctl : UInt8) : List Access :=
  let ctlIndex := slot / 4
  .andRegister (regFirewallIndex regFirewallFilterControl + ctlIndex) (~~~ placed 0xFF (slot % 4)) ::
    load slot pattern mask ++
    [.orRegister (regFirewallIndex regFirewallFilterControl + ctlIndex) (placed ctl (slot % 4))]

/-! ## What the card sees -/

namespace Card

def control (c : Card) (slot : ℕ) : UInt8 :=
  byteAt (c.registers (regFirewallIndex regFirewallFilterControl + slot / 4)) (slot % 4)

/-- Even bytes are the lower half of a dword. -/
def loaded (c : Card) (slot : ℕ) : Ternary UInt8 where
  mask := fun i =>
    if i < exanicFilterSize then
      byteAt (c.filters (firewallFilterIndex slot + i / 2)) (2 * (i % 2))
    else 0
  pattern := fun i =>
    if i < exanicFilterSize then
      byteAt (c.filters (firewallFilterIndex slot + i / 2)) (2 * (i % 2) + 1)
    else 0

/-- An enabled rule, and whether it allows what it matches. -/
def ruleOf (ctl : UInt8) (loaded : Ternary UInt8) : Option (Bool × Ternary UInt8) :=
  if ctl &&& exanicFilterEnable = 0 then none else some (ctl &&& exanicFilterAllow ≠ 0, loaded)

/-- The rule the card has in a slot. -/
def rule (c : Card) (slot : ℕ) : Option (Bool × Ternary UInt8) :=
  ruleOf (c.control slot) (c.loaded slot)

theorem rule_eq_none {c : Card} {slot : ℕ} :
    c.rule slot = none ↔ c.control slot &&& exanicFilterEnable = 0 := by
  simp [rule, ruleOf]

/-- The card after some accesses. -/
def runs (c : Card) (as : List Access) : Card := as.foldl Access.run c

@[simp] theorem runs_cons (c : Card) (a : Access) (as : List Access) :
    c.runs (a :: as) = (Access.run c a).runs as := rfl

@[simp] theorem runs_append (c : Card) (as bs : List Access) :
    c.runs (as ++ bs) = (c.runs as).runs bs := List.foldl_append

end Card

/-- The part of a rule that fits into a slot. -/
def fitted (rule : Ternary UInt8) : Ternary UInt8 where
  pattern := fun i => if i < exanicFilterSize then rule.pattern i else 0
  mask := fun i => if i < exanicFilterSize then rule.mask i else 0

theorem fitted_matches (rule : Ternary UInt8) (frame : ℕ → UInt8) :
    (fitted rule).Matches exanicFilterSize frame ↔ rule.Matches exanicFilterSize frame := by
  refine forall₂_congr fun i inside => ?_
  simp only [fitted, if_pos inside]

/-! ## Loading -/

theorem filters_setFilters (c : Card) (base : ℕ) (value : ℕ → UInt32) (n m : ℕ) :
    (c.runs ((List.range n).map fun i => .setFilter (base + i) (value i))).filters m =
      if base ≤ m ∧ m < base + n then value (m - base) else c.filters m := by
  induction n with
  | zero => rw [if_neg (by omega)]; rfl
  | succ n ih =>
      rw [List.range_succ, List.map_append, Card.runs_append]
      have last : ∀ c : Card, (c.runs [.setFilter (base + n) (value n)]).filters m =
          if m = base + n then value n else c.filters m := fun c => Function.update_apply _ _ _ _
      rw [List.map_singleton, last, ih]
      by_cases here : m = base + n
      · rw [if_pos here, if_pos (by omega), here, Nat.add_sub_cancel_left]
      · rw [if_neg here]
        exact if_congr (by omega) rfl rfl

/-- Two slots have no dword in common. -/
theorem firewallFilterIndex_apart {s t i j : ℕ} (other : s ≠ t) (hi : i < 22) (hj : j < 22) :
    firewallFilterIndex s + i ≠ firewallFilterIndex t + j := by
  unfold firewallFilterIndex
  omega

/-- **What was loaded is there.** -/
theorem loaded_load (c : Card) (slot : ℕ) (rule : Ternary UInt8) :
    (c.runs (load slot rule.pattern rule.mask)).loaded slot = fitted rule := by
  have dword : ∀ i < exanicFilterSize,
      (c.runs (load slot rule.pattern rule.mask)).filters (firewallFilterIndex slot + i / 2) =
        interleaved rule.pattern rule.mask (i / 2) := by
    intro i inside
    have size : exanicFilterSize = 44 := rfl
    have below : i / 2 < 2 * exanicFilterNumDwords := by
      show _ < 22
      omega
    rw [load, filters_setFilters, if_pos ⟨Nat.le_add_right _ _, by omega⟩, Nat.add_sub_cancel_left]
  have parity : ∀ i, i % 2 = 0 ∧ 2 * (i / 2) = i ∨ i % 2 = 1 ∧ 2 * (i / 2) + 1 = i := by omega
  unfold Card.loaded fitted
  congr 1 <;> funext i <;> refine if_ctx_congr Iff.rfl (fun inside => ?_) (fun _ => rfl)
  · rw [dword i inside, interleaved]
    rcases parity i with ⟨even, same⟩ | ⟨odd, same⟩
    · rw [even]
      exact (byteAt_pack _ _ _ _ 1).trans (congrArg rule.pattern same)
    · rw [odd]
      exact (byteAt_pack _ _ _ _ 3).trans (congrArg rule.pattern same)
  · rw [dword i inside, interleaved]
    rcases parity i with ⟨even, same⟩ | ⟨odd, same⟩
    · rw [even]
      exact (byteAt_pack _ _ _ _ 0).trans (congrArg rule.mask same)
    · rw [odd]
      exact (byteAt_pack _ _ _ _ 2).trans (congrArg rule.mask same)

/-- An access to the dwords of another slot. -/
theorem loaded_setFilter (c : Card) {slot other i : ℕ} (apart : other ≠ slot) (inside : i < 22)
    (value : UInt32) :
    (Access.run c (.setFilter (firewallFilterIndex slot + i) value)).loaded other =
      c.loaded other := by
  have same : ∀ n < exanicFilterSize,
      (Access.run c (.setFilter (firewallFilterIndex slot + i) value)).filters
        (firewallFilterIndex other + n / 2) = c.filters (firewallFilterIndex other + n / 2) := by
    intro n small
    have size : exanicFilterSize = 44 := rfl
    exact Function.update_of_ne (firewallFilterIndex_apart apart (by omega) inside) _ _
  unfold Card.loaded
  congr 1 <;> funext n <;> refine if_ctx_congr Iff.rfl (fun small => ?_) (fun _ => rfl) <;>
    rw [same n small]

/-! ## Control bytes -/

section Control

variable (c : Card) {slot other : ℕ}

/-- The byte of another slot is elsewhere, or in the same register at another place. -/
theorem control_andRegister :
    (Access.run c (.andRegister (regFirewallIndex regFirewallFilterControl + slot / 4)
      (~~~ placed 0xFF (slot % 4)))).control other = if other = slot then 0 else c.control other := by
  have within : ∀ n, n % 4 < 4 := fun n => Nat.mod_lt n (by decide)
  simp only [Card.control, Access.run]
  by_cases register : other / 4 = slot / 4
  · rw [register, Function.update_self, byteAt_clear _ (within slot) (within other)]
    exact if_congr (by omega) rfl rfl
  · rw [Function.update_of_ne (by omega), if_neg (by rintro rfl; exact register rfl)]

theorem control_orRegister (ctl : UInt8) :
    (Access.run c (.orRegister (regFirewallIndex regFirewallFilterControl + slot / 4)
      (placed ctl (slot % 4)))).control other =
        if other = slot then c.control other ||| ctl else c.control other := by
  have within : ∀ n, n % 4 < 4 := fun n => Nat.mod_lt n (by decide)
  simp only [Card.control, Access.run]
  by_cases register : other / 4 = slot / 4
  · rw [register, Function.update_self, byteAt_set _ _ (within slot) (within other)]
    exact if_congr (by omega) rfl rfl
  · rw [Function.update_of_ne (by omega), if_neg (by rintro rfl; exact register rfl)]

end Control

/-- A register that has no control bytes. -/
theorem rule_setRegister {index : ℕ} (below : index < regFirewallIndex regFirewallFilterControl)
    (c : Card) (value : UInt32) (slot : ℕ) :
    (Access.run c (.setRegister index value)).rule slot = c.rule slot := by
  have same : (Access.run c (.setRegister index value)).control slot = c.control slot := by
    simp only [Card.control, Access.run]
    rw [Function.update_of_ne (by omega)]
  rw [Card.rule, same]
  rfl

/-! ## Setting a slot -/

section Raw

variable (c : Card) (slot : ℕ) (rule : Ternary UInt8) (ctl : UInt8)

theorem control_load (c : Card) (slot other : ℕ) (pattern mask : ℕ → UInt8) :
    (c.runs (load slot pattern mask)).control other = c.control other := by
  refine Publish.same_foldl Access.run (fun c : Card => c.control other) ?_ c
  rintro a member c
  obtain ⟨i, -, rfl⟩ := List.mem_map.1 member
  rfl

theorem loaded_load_other (c : Card) {slot other : ℕ} (apart : other ≠ slot)
    (pattern mask : ℕ → UInt8) : (c.runs (load slot pattern mask)).loaded other = c.loaded other := by
  refine Publish.same_foldl Access.run (fun c : Card => c.loaded other) ?_ c
  rintro a member c
  obtain ⟨i, inside, rfl⟩ := List.mem_map.1 member
  exact loaded_setFilter c apart (List.mem_range.1 inside) _

/-- **The rule of the slot is the one that was asked for, and the others stay.** -/
theorem rule_setFirewallFilterRaw (other : ℕ) :
    (c.runs (exanicSetFirewallFilterRaw slot rule.pattern rule.mask ctl)).rule other =
      if other = slot then Card.ruleOf ctl (fitted rule) else c.rule other := by
  have control : (c.runs (exanicSetFirewallFilterRaw slot rule.pattern rule.mask ctl)).control other =
      if other = slot then ctl else c.control other := by
    rw [exanicSetFirewallFilterRaw, Card.runs_append]
    refine (control_orRegister _ _).trans ?_
    rw [Card.runs_cons, control_load, control_andRegister]
    split
    next => exact UInt8.zero_or
    next => rfl
  have loaded : (c.runs (exanicSetFirewallFilterRaw slot rule.pattern rule.mask ctl)).loaded other =
      if other = slot then fitted rule else c.loaded other := by
    rw [exanicSetFirewallFilterRaw, Card.runs_append, Card.runs_cons]
    split
    next same => exact same ▸ loaded_load _ _ _
    next apart => exact loaded_load_other _ apart _ _
  rw [Card.rule, control, loaded]
  split <;> rfl

/-- **While a slot is set, the card has its old rule, none, or the new one.** -/
theorem exanicSetFirewallFilterRaw_throughout :
    Publish.Throughout Access.run (fun d : Card => d.rule slot = c.rule slot ∨ d.rule slot = none ∨
      d.rule slot =
        (c.runs (exanicSetFirewallFilterRaw slot rule.pattern rule.mask ctl)).rule slot)
      (exanicSetFirewallFilterRaw slot rule.pattern rule.mask ctl) c := by
  refine Publish.throughout ?_ ?_
  · rw [Card.rule_eq_none, control_andRegister, if_pos rfl, UInt8.zero_and]
  · rintro a member d hidden
    obtain ⟨i, -, rfl⟩ := List.mem_map.1 member
    rw [Card.rule_eq_none] at hidden ⊢
    exact hidden

/-- Other slots do not notice. -/
theorem exanicSetFirewallFilterRaw_other {other : ℕ} (apart : other ≠ slot) :
    Publish.Throughout Access.run (fun d : Card => d.rule other = c.rule other)
      (exanicSetFirewallFilterRaw slot rule.pattern rule.mask ctl) c := by
  intro k
  refine Publish.same_foldl Access.run (fun d : Card => d.rule other) ?_ c
  intro a member d
  have whole := List.mem_of_mem_take member
  rw [exanicSetFirewallFilterRaw, List.mem_append, List.mem_cons, List.mem_singleton] at whole
  rcases whole with (rfl | loads) | rfl
  · simp only [Card.rule, control_andRegister, if_neg apart]
    rfl
  · obtain ⟨i, inside, rfl⟩ := List.mem_map.1 loads
    simp only [Card.rule, loaded_setFilter d apart (List.mem_range.1 inside)]
    rfl
  · simp only [Card.rule, control_orRegister, if_neg apart]
    rfl

/-- The registers below the control bytes are for other things. -/
theorem registers_setFirewallFilterRaw {i : ℕ} (below : i < regFirewallIndex regFirewallFilterControl) :
    (c.runs (exanicSetFirewallFilterRaw slot rule.pattern rule.mask ctl)).registers i =
      c.registers i := by
  refine Publish.same_foldl Access.run (fun d : Card => d.registers i) ?_ c
  intro a member d
  rw [exanicSetFirewallFilterRaw, List.mem_append, List.mem_cons, List.mem_singleton] at member
  rcases member with (rfl | loads) | rfl
  · exact Function.update_of_ne (by omega) _ _
  · obtain ⟨i, -, rfl⟩ := List.mem_map.1 loads
    rfl
  · exact Function.update_of_ne (by omega) _ _

end Raw

end ExanicCapture.Firewall
