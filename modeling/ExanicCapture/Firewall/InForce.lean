/-
# Firewall.InForce -- the filter in force in each slot

`inForce` reads off a history of calls, and what they returned, which filter each slot
should have.  The card agrees with it after every run, and inside each call it has at
every moment the filter from before, the one from after, or none in the slot
(`firewall_throughout`): it never uses half a rule.

The files agree too, unless a call has failed when it had already touched one
(`firewall_files`): a string is stored before its rule is loaded, and removed before it.
-/
import ExanicCapture.Firewall.Api

namespace ExanicCapture.Firewall

set_option autoImplicit false

open Theory Capture ExanicCapture.Filter Save

/-! ## What calls return -/

/-- The filter of each slot after a call that has returned this. -/
def inForceStep (table : ℕ → Option CStr) : Call × Except FirewallError Unit → ℕ → Option CStr
  | (.set slot filter _, .ok ()) => Function.update table slot.toInt.toNat (some filter)
  | (.clear slot _, .ok ()) => Function.update table slot.toInt.toNat none
  | (.clearAll _, .error .notFirewall) => table
  | (.clearAll _, _) => fun _ => none
  | _ => table

/-- The filter of each slot, on a card that started without. -/
def inForce (history : History) : ℕ → Option CStr := history.foldl inForceStep fun _ => none

theorem inForceStep_clearAll (table : ℕ → Option CStr) (dir : Directory)
    (result : Except StoreError Unit) :
    inForceStep table (.clearAll dir, result.mapError .store) = fun _ => none := by
  cases result <;> rfl

theorem inForce_concat (history : History) (last : Call × Except FirewallError Unit) :
    inForce (history ++ [last]) = inForceStep (inForce history) last := by
  simp [inForce]

/-- The slots whose file may have been left behind. -/
def staleStep (stale : ℕ → Prop) : Call × Except FirewallError Unit → ℕ → Prop
  | (.set slot _ _, .ok ()) => fun s => stale s ∧ s ≠ slot.toInt.toNat
  | (.set slot _ _, .error (.store e)) => fun s =>
      stale s ∨ (s = slot.toInt.toNat ∧ (e.call = .ftruncate ∨ e.call = .write))
  | (.clear slot _, .ok ()) => fun s => stale s ∧ s ≠ slot.toInt.toNat
  | (.clearAll _, .ok ()) => fun _ => False
  | (.clearAll _, .error (.store _)) => fun _ => True
  | _ => stale

def stale (history : History) : ℕ → Prop := history.foldl staleStep fun _ => False

theorem stale_concat (history : History) (last : Call × Except FirewallError Unit) :
    stale (history ++ [last]) = staleStep (stale history) last := by
  simp [stale]

/-- In this slot the card has the rule of the filter and nothing else. -/
def Enforces (shift32 : UInt32) (c : Card) (s : ℕ) : Option CStr → Prop
  | none => c.rule s = none
  | some text => ∃ f : FirewallFilter, strtok ' ' text = f.words ∧ f.Accepted shift32 ∧
      ∃ rule, c.rule s = some (!f.drop, rule) ∧
        ∀ frame, rule.Matches exanicFilterSize frame ↔ f.Holds shift32 frame

theorem Enforces.congr {shift32 : UInt32} {c d : Card} {s : ℕ} {filter : Option CStr}
    (same : d.rule s = c.rule s) (enforced : Enforces shift32 c s filter) :
    Enforces shift32 d s filter := by
  cases filter with
  | none => exact same.trans enforced
  | some text =>
      obtain ⟨f, words, accepted, rule, there, means⟩ := enforced
      exact ⟨f, words, accepted, rule, same.trans there, means⟩

/-! ## The card during a call -/

section Clear

variable (c : Card)

theorem rule_clearRaw (slot s : ℕ) :
    (c.runs (Exanic.clearRaw slot)).rule s = if s = slot then none else c.rule s :=
  rule_setFirewallFilterRaw c slot Ternary.blank 0 s

theorem clearRaw_throughout (slot s : ℕ) :
    Publish.Throughout Access.run (fun d : Card => d.rule s = c.rule s ∨ d.rule s = none)
      (Exanic.clearRaw slot) c := by
  intro k
  by_cases same : s = slot
  · subst same
    have moment : _ ∨ _ ∨ _ = (c.runs (Exanic.clearRaw s)).rule s :=
      exanicSetFirewallFilterRaw_throughout c s Ternary.blank 0 k
    rw [rule_clearRaw, if_pos rfl] at moment
    exact moment.imp_right (or_self_iff.1 ·)
  · exact .inl (exanicSetFirewallFilterRaw_other c slot Ternary.blank 0 same k)

theorem rule_clearRaws (slots : List ℕ) (s : ℕ) :
    (c.runs (slots.flatMap Exanic.clearRaw)).rule s = if s ∈ slots then none else c.rule s := by
  induction slots generalizing c with
  | nil => rfl
  | cons slot slots ih =>
      rw [List.flatMap_cons, Card.runs_append, ih, rule_clearRaw]
      by_cases later : s ∈ slots
      · rw [if_pos later, if_pos (List.mem_cons_of_mem _ later)]
      · rw [if_neg later]
        exact if_congr (by simp [later]) rfl rfl

theorem registers_clearRaws (slots : List ℕ) {i : ℕ}
    (below : i < regFirewallIndex regFirewallFilterControl) :
    (c.runs (slots.flatMap Exanic.clearRaw)).registers i = c.registers i := by
  induction slots generalizing c with
  | nil => rfl
  | cons slot slots ih =>
      rw [List.flatMap_cons, Card.runs_append, ih]
      exact registers_setFirewallFilterRaw c slot Ternary.blank 0 below

theorem clearRaws_throughout (slots : List ℕ) (s : ℕ) :
    Publish.Throughout Access.run (fun d : Card => d.rule s = c.rule s ∨ d.rule s = none)
      (slots.flatMap Exanic.clearRaw) c := by
  induction slots generalizing c with
  | nil => exact fun k => .inl (by rw [List.flatMap_nil, List.take_nil]; rfl)
  | cons slot slots ih =>
      refine (clearRaw_throughout c slot s).append fun k => ?_
      have here : (c.runs (Exanic.clearRaw slot)).rule s = c.rule s ∨
          (c.runs (Exanic.clearRaw slot)).rule s = none := by
        rw [rule_clearRaw]
        split
        · exact .inr rfl
        · exact .inl rfl
      rcases ih (c.runs (Exanic.clearRaw slot)) k with same | none
      · exact here.imp same.trans same.trans
      · exact .inr none

end Clear

/-! ## What each call does -/

theorem writeLoop_done {stored left text : CStr} {writes : List (Except CStr ℕ)}
    (done : writeLoop stored left writes = some (text, none)) : text = stored ++ left := by
  induction writes generalizing stored left with
  | nil =>
      cases left with
      | nil => cases done; simp
      | cons c left => cases done
  | cons w writes ih =>
      cases left with
      | nil => cases done; simp
      | cons c left =>
          cases w with
          | error reason => cases done
          | ok n =>
              rw [ih done, List.append_assoc, List.take_append_drop]

/-- A string is stored, or the file may have been cut short. -/
theorem exanicSetFilterString_cases {name : CStr} {files files' : Files} {slot : ℕ}
    {filter : CStr} {sys : SetCalls} {result : Except StoreError Unit}
    (called : exanicSetFilterString name files slot filter sys = some (result, files')) :
    (result = .ok () ∧ files' = Function.update files slot (some filter)) ∨
      ∃ e, result = .error e ∧ (∀ s ≠ slot, files' s = files s) ∧
        (files' = files ∨ e.call = .ftruncate ∨ e.call = .write) := by
  have elsewhere : ∀ text, ∀ s ≠ slot, Function.update files slot text s = files s := fun text s other =>
    Function.update_of_ne other _ _
  unfold exanicSetFilterString at called
  split at called
  next => cases called; exact .inr ⟨_, rfl, fun _ _ => rfl, .inl rfl⟩
  next =>
    split at called
    next => cases called; exact .inr ⟨_, rfl, fun _ _ => rfl, .inl rfl⟩
    next =>
      split at called
      next => cases called; exact .inr ⟨_, rfl, fun _ _ => rfl, .inl rfl⟩
      next =>
        split at called
        next => cases called; exact .inr ⟨_, rfl, fun _ _ => rfl, .inl rfl⟩
        next =>
          split at called
          next => cases called; exact .inr ⟨_, rfl, elsewhere _, .inr (.inl rfl)⟩
          next =>
            split at called
            next => cases called
            next => cases called; exact .inr ⟨_, rfl, elsewhere _, .inr (.inr rfl)⟩
            next written =>
              cases called
              rw [writeLoop_done written]
              exact .inl ⟨rfl, rfl⟩

theorem checkFilterSlot_ok {c : Card} {slot : Int32} (passed : c.checkFilterSlot slot = .ok ()) :
    c.isFirewall = true ∧ 0 ≤ slot.toInt ∧ slot.toInt < c.exanicGetNumFirewallFilters := by
  unfold Card.checkFilterSlot at passed
  split at passed
  next firewall =>
    split at passed
    next => cases passed
    next inside => exact ⟨firewall, by omega, by omega⟩
  next => cases passed

theorem checkFilterSlot_error {c : Card} {slot : Int32} {e : FirewallError}
    (refused : c.checkFilterSlot slot = .error e) : e = .notFirewall ∨ e = .invalidSlot slot := by
  unfold Card.checkFilterSlot at refused
  split at refused
  next =>
    split at refused
    next => cases refused; exact .inr rfl
    next => cases refused
  next => cases refused; exact .inl rfl

section Calls

variable {host : ByteOrder} {shift32 : UInt32} {name : CStr} {fw : Exanic} {out : Outcome}

/-- A filter is set, or the card is not touched. -/
theorem exanicSetFirewallFilter_cases {slot : Int32} {filter : CStr} {sys : SetCalls}
    (called : fw.exanicSetFirewallFilter host shift32 name slot filter sys = some out) :
    (∃ e, out = fw.refused e ∧ ∀ e', e ≠ .store e') ∨
      (∃ e, out.result = .error (.store e) ∧ out.accesses = [] ∧
        (∀ s ≠ slot.toInt.toNat, out.files s = fw.files s) ∧
        (out.files = fw.files ∨ e.call = .ftruncate ∨ e.call = .write)) ∨
      ∃ drop rule, fw.card.checkFilterSlot slot = .ok () ∧
        exanicParseFilterString host shift32 filter = .ok (drop, rule) ∧
        out = ⟨.ok (), exanicSetFirewallFilterRaw slot.toInt.toNat rule.pattern rule.mask
          (exanicFilterEnable ||| if drop then 0 else exanicFilterAllow),
          Function.update fw.files slot.toInt.toNat (some filter)⟩ := by
  unfold Exanic.exanicSetFirewallFilter at called
  split at called
  next e refused =>
    cases called
    refine .inl ⟨e, rfl, fun e' => ?_⟩
    rcases checkFilterSlot_error refused with rfl | rfl <;> simp
  next passed =>
    split at called
    next => cases called; exact .inl ⟨_, rfl, fun e' => by simp⟩
    next drop rule parsed =>
      split at called
      next => cases called
      next e files stored =>
        cases called
        rcases exanicSetFilterString_cases stored with ⟨done, -⟩ | ⟨e', same, others, kept⟩
        · cases done
        · cases same
          exact .inr (.inl ⟨e, rfl, rfl, others, kept⟩)
      next files stored =>
        cases called
        rcases exanicSetFilterString_cases stored with ⟨-, rfl⟩ | ⟨e', same, -⟩
        · exact .inr (.inr ⟨drop, rule, passed, parsed, rfl⟩)
        · cases same

/-- A filter is cleared, or nothing happens. -/
theorem exanicClearFirewallFilter_cases (name : CStr) (fw : Exanic) (slot : Int32)
    (unlink : Option CStr) :
    (∃ e, fw.exanicClearFirewallFilter name slot unlink = fw.refused e) ∨
      fw.card.checkFilterSlot slot = .ok () ∧
        fw.exanicClearFirewallFilter name slot unlink = ⟨.ok (), Exanic.clearRaw slot.toInt.toNat,
          Function.update fw.files slot.toInt.toNat none⟩ := by
  unfold Exanic.exanicClearFirewallFilter
  split
  next e _ => exact .inl ⟨e, rfl⟩
  next passed =>
    cases unlink with
    | some reason => exact .inl ⟨_, rfl⟩
    | none => exact .inr ⟨passed, rfl⟩

/-- **During a call the slot has its old rule, none, or the new one.** -/
theorem call_throughout {call : Call} (called : fw.call host shift32 name call = some out) (s : ℕ) :
    Publish.Throughout Access.run (fun d : Card => d.rule s = fw.card.rule s ∨ d.rule s = none ∨
      d.rule s = (fw.card.runs out.accesses).rule s) out.accesses fw.card := by
  have untouched : out.accesses = [] → Publish.Throughout Access.run (fun d : Card =>
      d.rule s = fw.card.rule s ∨ d.rule s = none ∨
        d.rule s = (fw.card.runs out.accesses).rule s) out.accesses fw.card := by
    intro none k
    rw [none, List.take_nil]
    exact .inl rfl
  cases call with
  | set slot filter sys =>
      rcases exanicSetFirewallFilter_cases called with
        ⟨e, rfl, -⟩ | ⟨e, -, none, -⟩ | ⟨drop, rule, -, -, rfl⟩
      · exact untouched rfl
      · exact untouched none
      · intro k
        by_cases same : s = slot.toInt.toNat
        · subst same
          exact exanicSetFirewallFilterRaw_throughout _ _ rule _ k
        · exact .inl (exanicSetFirewallFilterRaw_other _ _ rule _ same k)
  | clear slot unlink =>
      obtain rfl := Option.some.inj called
      rcases exanicClearFirewallFilter_cases name fw slot unlink with ⟨e, same⟩ | ⟨-, same⟩
      · exact untouched (by rw [same]; rfl)
      · rw [same]
        exact fun k => (clearRaw_throughout fw.card _ s k).imp_right .inl
  | clearAll dir =>
      obtain rfl := Option.some.inj called
      unfold Exanic.exanicClearAllFirewallFilters at untouched ⊢
      split
      next => exact fun k => (clearRaws_throughout fw.card _ s k).imp_right .inl
      next other =>
        rw [if_neg other] at untouched
        exact untouched rfl
  | setState state =>
      obtain rfl := Option.some.inj called
      unfold Exanic.exanicSetFirewallState at untouched ⊢
      split
      next =>
        intro k
        refine .inl (Publish.same_foldl Access.run (fun d : Card => d.rule s) ?_ fw.card)
        intro a member d
        rw [List.mem_singleton.1 (List.mem_of_mem_take member)]
        exact rule_setRegister (by decide) d state s
      next other =>
        rw [if_neg other] at untouched
        exact untouched rfl

/-- No call changes what kind of card it is, or its number of slots. -/
theorem call_registers {call : Call} (called : fw.call host shift32 name call = some out) {i : ℕ}
    (fixed : i < regFirewallIndex regFirewallState) :
    (fw.card.runs out.accesses).registers i = fw.card.registers i := by
  have below : i < regFirewallIndex regFirewallFilterControl := lt_trans fixed (by decide)
  cases call with
  | set slot filter sys =>
      rcases exanicSetFirewallFilter_cases called with
        ⟨e, rfl, -⟩ | ⟨e, -, none, -⟩ | ⟨drop, rule, -, -, rfl⟩
      · rfl
      · rw [none]; rfl
      · exact registers_setFirewallFilterRaw _ _ rule _ below
  | clear slot unlink =>
      obtain rfl := Option.some.inj called
      rcases exanicClearFirewallFilter_cases name fw slot unlink with ⟨e, same⟩ | ⟨-, same⟩
      · rw [same]; rfl
      · rw [same]
        exact registers_setFirewallFilterRaw _ _ Ternary.blank _ below
  | clearAll dir =>
      obtain rfl := Option.some.inj called
      unfold Exanic.exanicClearAllFirewallFilters
      split
      next => exact registers_clearRaws _ _ below
      next => rfl
  | setState state =>
      obtain rfl := Option.some.inj called
      unfold Exanic.exanicSetFirewallState
      split
      next => exact Function.update_of_ne (by omega) _ _
      next => rfl

end Calls

/-! ## The card after a run -/

/-- The card has the rules of the filters in force, all of them in slots it has. -/
structure Agrees (shift32 : UInt32) (c : Card) (table : ℕ → Option CStr) : Prop where
  enforces : ∀ s, c.Has s → Enforces shift32 c s (table s)
  inside : ∀ s, table s ≠ none → c.Has s

theorem enforces_set {shift32 : UInt32} {host : ByteOrder} {filter : CStr} {drop : Bool}
    {rule : Ternary UInt8} (parsed : exanicParseFilterString host shift32 filter = .ok (drop, rule))
    {c : Card} {s : ℕ}
    (there : c.rule s = Card.ruleOf (exanicFilterEnable ||| if drop then 0 else exanicFilterAllow)
      (fitted rule)) :
    Enforces shift32 c s (some filter) := by
  obtain ⟨-, f, words, accepted, rfl, rfl⟩ := parses_iff.1 parsed
  refine ⟨f, words, accepted, fitted (f.rule host shift32), there.trans ?_, fun frame =>
    (fitted_matches _ frame).trans (f.rule_matches accepted frame)⟩
  cases f.drop <;> rfl

section Runs

variable {host : ByteOrder} {shift32 : UInt32} {name : CStr} {fw : Exanic} {out : Outcome}

theorem call_slots {call : Call} (called : fw.call host shift32 name call = some out) :
    (fw.card.runs out.accesses).exanicGetNumFirewallFilters =
      fw.card.exanicGetNumFirewallFilters := by
  have kind : (fw.card.runs out.accesses).registers regExanicFunctionId = _ :=
    call_registers called (by decide)
  have number : (fw.card.runs out.accesses).registers (regFirewallIndex regFirewallNumFilters) = _ :=
    call_registers called (by decide)
  rw [Card.exanicGetNumFirewallFilters, Card.isFirewall, kind, number]
  rfl

/-- One slot is changed and the others are not. -/
theorem Agrees.update {c d : Card} {table : ℕ → Option CStr} (agrees : Agrees shift32 c table)
    {slot : ℕ} {filter : Option CStr} (here : Enforces shift32 d slot filter)
    (others : ∀ s ≠ slot, d.rule s = c.rule s)
    (number : d.exanicGetNumFirewallFilters = c.exanicGetNumFirewallFilters)
    (inside : c.Has slot) : Agrees shift32 d (Function.update table slot filter) where
  enforces := by
    intro s has
    rw [Card.Has, number] at has
    by_cases same : s = slot
    · subst same
      rwa [Function.update_self]
    · rw [Function.update_of_ne same]
      exact (agrees.enforces s has).congr (others s same)
  inside := by
    intro s some
    rw [Card.Has, number]
    by_cases same : s = slot
    · rwa [same]
    · rw [Function.update_of_ne same] at some
      exact agrees.inside s some

/-- Nothing that matters has changed. -/
theorem Agrees.congr {c d : Card} {table : ℕ → Option CStr} (agrees : Agrees shift32 c table)
    (same : ∀ s, d.rule s = c.rule s)
    (number : d.exanicGetNumFirewallFilters = c.exanicGetNumFirewallFilters) :
    Agrees shift32 d table where
  enforces s has := by
    rw [Card.Has, number] at has
    exact (agrees.enforces s has).congr (same s)
  inside s some := by
    rw [Card.Has, number]
    exact agrees.inside s some

/-- **A call keeps the card and what was returned in agreement.** -/
theorem Agrees.call {table : ℕ → Option CStr} (agrees : Agrees shift32 fw.card table) {call : Call}
    (called : fw.call host shift32 name call = some out) :
    Agrees shift32 (fw.card.runs out.accesses) (inForceStep table (call, out.result)) := by
  have number := call_slots called
  cases call with
  | set slot filter sys =>
      rcases exanicSetFirewallFilter_cases called with
        ⟨e, rfl, -⟩ | ⟨e, failed, none, -⟩ | ⟨drop, rule, passed, parsed, rfl⟩
      · exact agrees
      · rw [failed, none]
        exact agrees
      · obtain ⟨-, low, high⟩ := checkFilterSlot_ok passed
        refine agrees.update (enforces_set parsed ?_) (fun s other => ?_) number
          (by rw [Card.Has]; omega)
        · rw [rule_setFirewallFilterRaw, if_pos rfl]
        · rw [rule_setFirewallFilterRaw, if_neg other]
  | clear slot unlink =>
      obtain rfl := Option.some.inj called
      rcases exanicClearFirewallFilter_cases name fw slot unlink with ⟨e, same⟩ | ⟨passed, same⟩
      · rw [same]
        exact agrees
      · rw [same] at number ⊢
        obtain ⟨-, low, high⟩ := checkFilterSlot_ok passed
        refine agrees.update ?_ (fun s other => ?_) number (by rw [Card.Has]; omega)
        · exact (rule_clearRaw _ _ _).trans (if_pos rfl)
        · rw [rule_clearRaw, if_neg other]
  | clearAll dir =>
      obtain rfl := Option.some.inj called
      unfold Exanic.exanicClearAllFirewallFilters at number ⊢
      split at number
      next firewall =>
        rw [if_pos firewall]
        refine ⟨fun s has => ?_, fun s some => ?_⟩
        · rw [Card.Has, number] at has
          rw [inForceStep_clearAll]
          show Card.rule _ s = none
          rw [rule_clearRaws, if_pos (List.mem_range.2 (by omega))]
        · rw [inForceStep_clearAll] at some
          exact absurd rfl some
      next other =>
        rw [if_neg other]
        exact agrees
  | setState state =>
      obtain rfl := Option.some.inj called
      unfold Exanic.exanicSetFirewallState at number ⊢
      split at number
      next firewall =>
        rw [if_pos firewall]
        exact agrees.congr (rule_setRegister (by decide) fw.card state) number
      next other =>
        rw [if_neg other]
        exact agrees

/-- A card without a rule in its slots. -/
theorem agrees_blank {c : Card} (blank : ∀ s, c.Has s → c.rule s = none) :
    Agrees shift32 c (inForce []) :=
  ⟨blank, fun _ some => absurd rfl some⟩

theorem Run.agrees {start : Exanic} {history : History} (run : Run host shift32 name start history fw)
    (blank : ∀ s, start.card.Has s → start.card.rule s = none) :
    Agrees shift32 fw.card (inForce history) := by
  induction run with
  | nil => exact agrees_blank blank
  | snoc before fits called ih =>
      rw [inForce_concat]
      exact ih.call called

theorem Run.slots {start : Exanic} {history : History}
    (run : Run host shift32 name start history fw) :
    fw.card.exanicGetNumFirewallFilters = start.card.exanicGetNumFirewallFilters := by
  induction run with
  | nil => rfl
  | snoc before fits called ih => exact (call_slots called).trans ih

/-- **At every moment of every call a slot of the card has no rule, that of the filter that
was in force before the call, or that of the one that is in force after it.** -/
theorem firewall_throughout {start : Exanic} {history : History}
    (run : Run host shift32 name start history fw)
    (blank : ∀ s, start.card.Has s → start.card.rule s = none) {call : Call}
    (called : fw.call host shift32 name call = some out) {s : ℕ} (has : start.card.Has s) :
    Publish.Throughout Access.run (fun d : Card => d.rule s = none ∨
      Enforces shift32 d s (inForce history s) ∨
      Enforces shift32 d s (inForce (history ++ [(call, out.result)]) s)) out.accesses fw.card := by
  have before := run.agrees blank
  have after := before.call called
  have slots := run.slots
  rw [inForce_concat]
  intro k
  rcases call_throughout called s k with same | none | same
  · refine .inr (.inl ((before.enforces s ?_).congr same))
    rwa [Card.Has, slots]
  · exact .inl none
  · refine .inr (.inr ((after.enforces s ?_).congr same))
    rwa [Card.Has, call_slots called, slots]

/-! ## The files after a run -/

theorem unlinkLoop_done {name : CStr} {files files' : Files} {slots : List (ℕ × Option CStr)}
    (done : unlinkLoop name files slots = (.ok (), files')) (s : ℕ) :
    files' s = if s ∈ slots.map Prod.fst then none else files s := by
  induction slots generalizing files with
  | nil =>
      cases done
      rfl
  | cons entry slots ih =>
      obtain ⟨slot, unlink⟩ := entry
      cases unlink with
      | some reason => cases done
      | none =>
          rw [ih done, List.map_cons]
          by_cases later : s ∈ slots.map Prod.fst
          · rw [if_pos later, if_pos (List.mem_cons_of_mem _ later)]
          · rw [if_neg later, Function.update_apply]
            exact if_congr (by simp [later]) rfl rfl

/-- Once all strings are cleared there are none. -/
theorem exanicClearAllFilterStrings_done {name : CStr} {files files' : Files} {dir : Directory}
    (fits : dir.Fits files) (done : exanicClearAllFilterStrings name files dir = (.ok (), files'))
    (s : ℕ) : files' s = none := by
  cases dir with
  | absent =>
      cases done
      exact fits s
  | unreadable reason => cases done
  | entries slots rmdir =>
      cases unlinked : unlinkLoop name files slots with
      | mk result left =>
          simp only [exanicClearAllFilterStrings, unlinked] at done
          cases result with
          | error e => cases done
          | ok _ =>
              cases rmdir with
              | some reason => cases done
              | none =>
                  cases done
                  rw [unlinkLoop_done unlinked]
                  split
                  next => rfl
                  next other => exact by_contra fun some => other (fits rfl s some)

/-- **A call keeps the files in agreement, except where it has failed half-way.** -/
theorem call_files {call : Call} (called : fw.call host shift32 name call = some out)
    (fits : call.Fits fw.files) {table : ℕ → Option CStr} {behind : ℕ → Prop}
    (agree : ∀ s, ¬ behind s → fw.files s = table s) (s : ℕ)
    (fresh : ¬ staleStep behind (call, out.result) s) :
    out.files s = inForceStep table (call, out.result) s := by
  cases call with
  | set slot filter sys =>
      rcases exanicSetFirewallFilter_cases called with
        ⟨e, rfl, other⟩ | ⟨e, failed, -, others, kept⟩ | ⟨drop, rule, -, -, rfl⟩
      · cases e with
        | store e => exact absurd rfl (other e)
        | notFirewall => exact agree s fresh
        | invalidSlot slot => exact agree s fresh
        | filter e => exact agree s fresh
      · rw [failed] at fresh ⊢
        have old := agree s fun stale => fresh (.inl stale)
        by_cases here : s = slot.toInt.toNat
        · rw [kept.resolve_right fun cut => fresh (.inr ⟨here, cut⟩)]
          exact old
        · exact (others s here).trans old
      · show Function.update _ _ _ s = Function.update _ _ _ s
        by_cases here : s = slot.toInt.toNat
        · rw [here, Function.update_self, Function.update_self]
        · rw [Function.update_of_ne here, Function.update_of_ne here]
          exact agree s fun stale => fresh ⟨stale, here⟩
  | clear slot unlink =>
      obtain rfl := Option.some.inj called
      rcases exanicClearFirewallFilter_cases name fw slot unlink with ⟨e, same⟩ | ⟨-, same⟩
      · rw [same] at fresh ⊢
        exact agree s fresh
      · rw [same] at fresh ⊢
        show Function.update _ _ _ s = Function.update _ _ _ s
        by_cases here : s = slot.toInt.toNat
        · rw [here, Function.update_self, Function.update_self]
        · rw [Function.update_of_ne here, Function.update_of_ne here]
          exact agree s fun stale => fresh ⟨stale, here⟩
  | clearAll dir =>
      obtain rfl := Option.some.inj called
      unfold Exanic.exanicClearAllFirewallFilters at fresh ⊢
      split at fresh
      next firewall =>
        rw [if_pos firewall]
        rw [inForceStep_clearAll]
        cases all : exanicClearAllFilterStrings name fw.files dir with
        | mk result files =>
            cases result with
            | error e =>
                simp only [all] at fresh
                exact absurd trivial fresh
            | ok done => exact exanicClearAllFilterStrings_done fits all s
      next other =>
        rw [if_neg other]
        exact agree s fresh
  | setState state =>
      obtain rfl := Option.some.inj called
      unfold Exanic.exanicSetFirewallState at fresh ⊢
      split at fresh
      next firewall =>
        rw [if_pos firewall]
        exact agree s fresh
      next other =>
        rw [if_neg other]
        exact agree s fresh

theorem Run.files {start : Exanic} {history : History} (run : Run host shift32 name start history fw)
    (blank : ∀ s, start.files s = none) (s : ℕ) (fresh : ¬ stale history s) :
    fw.files s = inForce history s := by
  induction run generalizing s with
  | nil => exact blank s
  | snoc before fits called ih =>
      rw [stale_concat] at fresh
      rw [inForce_concat]
      exact call_files called fits ih s fresh

/-- An `int` keeps a length that fits. -/
theorem toInt_filterLen {filterLen : UInt64} (fits : filterLen.toNat < 2 ^ 31) :
    filterLen.toUInt32.toInt32.toInt = filterLen.toNat := by
  have same : filterLen.toUInt32.toBitVec.toNat = filterLen.toNat := by
    rw [UInt32.toNat_toBitVec, UInt64.toNat_toUInt32]
    exact Nat.mod_eq_of_lt (by omega)
  rw [← Int32.toInt_toBitVec, UInt32.toBitVec_toInt32, BitVec.toInt_eq_toNat_of_lt (by omega), same]

/-- The filter has at least one character, its action. -/
theorem ne_nil_of_words {text : CStr} {f : FirewallFilter} (words : strtok ' ' text = f.words) :
    text ≠ [] := by
  rintro rfl
  cases words

end Runs

/-! ## Poles: a rule that replaces another -/

namespace Poles

/-- A firewall with four slots, and other things in the registers behind theirs. -/
def firewall : Exanic where
  card :=
    { registers := fun i =>
        if i = regExanicFunctionId then exanicFunctionFirewall
        else if i = regFirewallIndex regFirewallNumFilters then 4
        else if i = regFirewallIndex regFirewallFilterControl then 0
        else 0xFFFFFFFF
      filters := fun _ => 0 }
  files := fun _ => none

theorem firewall_blank (s : ℕ) (has : firewall.card.Has s) : firewall.card.rule s = none := by
  have four : firewall.card.exanicGetNumFirewallFilters = 4 := by decide +kernel
  have all : ∀ s < 4, firewall.card.control s &&& exanicFilterEnable = 0 := by decide +kernel
  rw [Card.Has, four] at has
  exact Card.rule_eq_none.2 (all s (by omega))

/-- The files are written in the pieces that the system takes. -/
def calls (writes : List (Except CStr ℕ)) : SetCalls where
  uninit := []
  mkdirConfig := none
  mkdirRuleset := none
  mkdirFilters := none
  opened := none
  truncated := none
  writes

def out (fw : Exanic) (f : FirewallFilter) (text : CStr) : Outcome where
  result := .ok ()
  accesses := exanicSetFirewallFilterRaw 3 (f.rule .little 0).pattern (f.rule .little 0).mask
    (exanicFilterEnable ||| if f.drop then 0 else exanicFilterAllow)
  files := Function.update fw.files 3 (some text)

theorem set_called {fw : Exanic} {f : FirewallFilter} {text : CStr}
    {writes : List (Except CStr ℕ)} (valid : fw.card.checkFilterSlot 3 = .ok ())
    (parsed : exanicParseFilterString .little 0 text = .ok (f.drop, f.rule .little 0))
    (written : writeLoop [] text writes = some (text, none)) :
    fw.call .little 0 "exanic0".toList (.set 3 text (calls writes)) = some (out fw f text) := by
  simp only [Exanic.call, Exanic.exanicSetFirewallFilter, valid, parsed, exanicSetFilterString, calls,
    written]
  rfl

def web : CStr := "allow tcp dst port 80".toList

def webFilter : FirewallFilter where
  drop := false
  vlan := none
  proto := some .tcp
  items := [.endpoint .dst .port "80".toList]

theorem webFilter_accepted : webFilter.Accepted 0 where
  vlanId := by
    rintro _ same
    cases same
  allowed := by decide +kernel
  readable := by decide +kernel
  once := List.pairwise_singleton _ _

def text : CStr := "drop vlan 5 udp src net 10.0.0.0/8 src port 53".toList

/-- The firewall once the first rule is set. -/
def served : Exanic where
  card := firewall.card.runs (out firewall webFilter web).accesses
  files := (out firewall webFilter web).files

def setWeb : Call := .set 3 web (calls [.ok 21])

def setText : Call := .set 3 text (calls [.ok 20, .ok 26])

theorem web_called :
    firewall.call .little 0 "exanic0".toList setWeb = some (out firewall webFilter web) := by
  have parsed : exanicParseFilterString .little 0 web = .ok (webFilter.drop, _) :=
    parses_iff.2 ⟨by decide, webFilter, by decide +kernel, webFilter_accepted, rfl, rfl⟩
  exact set_called (by decide +kernel) parsed (by decide +kernel)

theorem text_called :
    served.call .little 0 "exanic0".toList setText = some (out served sampleFilter text) := by
  have parsed : exanicParseFilterString .little 0 text = .ok (sampleFilter.drop, _) :=
    parses_iff.2 ⟨by decide, sampleFilter, by decide +kernel, sampleFilter_accepted, rfl, rfl⟩
  exact set_called (by decide +kernel) parsed (by decide +kernel)

theorem web_run : Run .little 0 "exanic0".toList firewall [(setWeb, .ok ())] served := by
  have fits : setWeb.Fits firewall.files := trivial
  exact .snoc .nil fits web_called

/-- The firewall once it is replaced. -/
def answering : Exanic where
  card := served.card.runs (out served sampleFilter text).accesses
  files := (out served sampleFilter text).files

theorem text_run : Run .little 0 "exanic0".toList firewall [(setWeb, .ok ()), (setText, .ok ())]
    answering := by
  have fits : setText.Fits served.files := trivial
  exact .snoc web_run fits text_called

end Poles

/-- A rule is replaced, and looked at at any moment. -/
theorem firewall_throughout_replaced :
    Publish.Throughout Access.run (fun d : Card => d.rule 3 = none ∨
      Enforces 0 d 3 (some Poles.web) ∨ Enforces 0 d 3 (some Poles.text))
      (Poles.out Poles.served Poles.sampleFilter Poles.text).accesses Poles.served.card :=
  firewall_throughout Poles.web_run Poles.firewall_blank Poles.text_called (by decide +kernel)

end ExanicCapture.Firewall
