/-
# Firewall.Items -- what the loop of the filter compiler does with its tokens

An item is a word of direction, a kind of operand and its text, or `type` and a number.
The loop succeeds exactly on the words of a list of items, each one allowed by the
protocol, readable, and free to be stored when its turn comes (`parseItems_iff`).
-/
import ExanicCapture.Firewall.Parser

namespace ExanicCapture.Firewall

set_option autoImplicit false

open Theory Capture ExanicCapture.Filter Save

def Direction.word : Direction → CStr
  | .dst => "dst".toList
  | .src => "src".toList

def OperandKind.word : OperandKind → CStr
  | .port => "port".toList
  | .host => "host".toList
  | .net => "net".toList

theorem direction_word (d : Direction) : direction d.word = some d := by
  cases d <;> decide

theorem operandKind_word (k : OperandKind) : operandKind k.word = some k := by
  cases k <;> decide

theorem word_of_direction {tok : CStr} {d : Direction} (reads : direction tok = some d) :
    tok = d.word := by
  unfold direction at reads
  split at reads
  next same => cases reads; exact same
  next =>
    split at reads
    next same => cases reads; exact same
    next => cases reads

theorem word_of_operandKind {tok : CStr} {k : OperandKind} (reads : operandKind tok = some k) :
    tok = k.word := by
  unfold operandKind at reads
  split at reads
  next same => cases reads; exact same
  next =>
    split at reads
    next same => cases reads; exact same
    next =>
      split at reads
      next same => cases reads; exact same
      next => cases reads

/-! ## Items -/

inductive Item where
  | endpoint (d : Direction) (k : OperandKind) (text : CStr)
  | type (text : CStr)
deriving DecidableEq

namespace Item

def words : Item → List CStr
  | endpoint d k text => [d.word, k.word, text]
  | type text => ["type".toList, text]

/-- The protocol has the field, and the card sees it. -/
def Allowed (p : Protocols) : Item → Prop
  | endpoint d k _ => ¬ (k = .port ∧ !(p.tcp || p.udp)) ∧ ¬ (d = .dst ∧ p.arp)
  | type _ => p.icmp = true

instance (p : Protocols) : (i : Item) → Decidable (i.Allowed p)
  | endpoint d k _ =>
      inferInstanceAs (Decidable (¬ (k = .port ∧ !(p.tcp || p.udp)) ∧ ¬ (d = .dst ∧ p.arp)))
  | type _ => inferInstanceAs (Decidable (p.icmp = true))

section Store

variable (host : ByteOrder) (shift32 : UInt32) (vlan : Bool) (p : Protocols)

/-- Where an address is stored. -/
def addrOffset (d : Direction) : ℕ :=
  if p.ip then
    match d with
    | .dst => ethEnd vlan + 16
    | .src => ethEnd vlan + 12
  else ethEnd vlan + 14

/-- Where a port is stored. -/
def portOffset : Direction → ℕ
  | .dst => ipEnd vlan + 2
  | .src => ipEnd vlan

def operandStore (d : Direction) : Operand → Ternary.Store UInt8
  | .port portNum => field16 host (portOffset vlan d) (htons host portNum) 0xFFFF
  | .addr ipAddr ipNetmask => field32 host (addrOffset vlan p d) ipAddr ipNetmask

/-- The store of an item, if it is readable. -/
def store : Item → Option (Ternary.Store UInt8)
  | endpoint d k text =>
      match parseOperand host shift32 text k with
      | .error _ => none
      | .ok operand => some (operandStore host vlan p d operand)
  | type text =>
      let (value, endptr) := strtol text
      if endptr = [] then some (field8 (ipEnd vlan) (.ofInt value) 0xFF) else none

/-- The field may be stored to: only `type` is given as often as one likes. -/
def Free (rule : Ternary UInt8) (i : Item) (s : Ternary.Store UInt8) : Prop :=
  match i with
  | endpoint _ _ _ => unset host rule s.offset s.width = true
  | type _ => True

/-- The items are stored one after the other. -/
inductive Take : Ternary UInt8 → List Item → Ternary UInt8 → Prop where
  | nil (rule : Ternary UInt8) : Take rule [] rule
  | cons {rule rule' : Ternary UInt8} {i : Item} {is : List Item} {s : Ternary.Store UInt8}
      (allowed : i.Allowed p) (readable : i.store host shift32 vlan p = some s)
      (free : i.Free host rule s) (rest : Take (rule.store s) is rule') : Take rule (i :: is) rule'

end Store

end Item

/-! ## The loop -/

section Loop

variable {host : ByteOrder} {shift32 : UInt32} {vlan : Bool} {p : Protocols}
  {rule rule' : Ternary UInt8}

theorem ok_of_if_iff {ε α : Type} {c : Prop} [Decidable c] {x y : α} {e : ε} :
    (if c then Except.ok x else .error e) = .ok y ↔ c ∧ y = x := by
  split
  next holds => simp [holds, eq_comm]
  next fails => simp [fails]

/-- An operand is stored if the mask of its field is zero. -/
theorem update_iff {d : Direction} {operand : Operand} (about : p.ip = true ∨ p.arp = true)
    (ports : ∀ n, operand = .port n → (p.tcp || p.udp) = true) :
    update host vlan p rule d operand = .ok rule' ↔
      unset host rule (Item.operandStore host vlan p d operand).offset
          (Item.operandStore host vlan p d operand).width = true ∧
        rule' = rule.store (Item.operandStore host vlan p d operand) := by
  cases operand with
  | port portNum =>
      have width : (Item.operandStore host vlan p d (.port portNum)).width = 2 :=
        host.bytes_length _ _
      rw [width]
      simp only [update, ports _ rfl, if_true]
      cases d <;> exact ok_of_if_iff
  | addr ipAddr ipNetmask =>
      have width : (Item.operandStore host vlan p d (.addr ipAddr ipNetmask)).width = 4 :=
        host.bytes_length _ _
      rw [width]
      by_cases ip : p.ip = true
      · simp only [update, Item.operandStore, Item.addrOffset, ip, if_true]
        cases d <;> exact ok_of_if_iff
      · simp only [update, Item.operandStore, Item.addrOffset, ip, about.resolve_left ip, if_true,
          Bool.false_eq_true, if_false]
        exact ok_of_if_iff

/-- Only a port is read as a port. -/
theorem parseOperand_port {k : OperandKind} {text : CStr} {n : UInt16}
    (reads : parseOperand host shift32 text k = .ok (.port n)) : k = .port := by
  cases k with
  | port => rfl
  | host =>
      simp only [parseOperand] at reads
      split at reads <;> cases reads
  | net =>
      simp only [parseOperand] at reads
      split at reads
      next => cases reads
      next =>
        split at reads
        next => cases reads
        next => split at reads <;> cases reads

/-- A port was only read with TCP or UDP. -/
theorem proto_of_port {k : OperandKind} {text : CStr} {operand : Operand}
    (ports : ¬ (k = .port ∧ (!(p.tcp || p.udp)) = true))
    (reads : parseOperand host shift32 text k = .ok operand) :
    ∀ n, operand = .port n → (p.tcp || p.udp) = true := by
  rintro n rfl
  by_contra other
  exact ports ⟨parseOperand_port reads, by simpa using other⟩

/-- One item in front. -/
theorem parseItems_item (about : p.ip = true ∨ p.arp = true) {i : Item} {s : Ternary.Store UInt8}
    (allowed : i.Allowed p) (readable : i.store host shift32 vlan p = some s)
    (free : i.Free host rule s) (toks : List CStr) :
    parseItems host shift32 vlan p rule (i.words ++ toks) =
      parseItems host shift32 vlan p (rule.store s) toks := by
  cases i with
  | endpoint d k text =>
      obtain ⟨ports, target⟩ := allowed
      simp only [Item.store] at readable
      split at readable
      next => cases readable
      next operand reads =>
        cases readable
        have stored : update host vlan p rule d operand = .ok (rule.store _) :=
          (update_iff about (proto_of_port ports reads)).2 ⟨free, rfl⟩
        simp only [Item.words, List.cons_append, List.nil_append, parseItems, direction_word,
          operandKind_word, if_neg ports, if_neg target, reads, stored]
  | type text =>
      have word : direction "type".toList = none := by decide
      have icmp : p.icmp = true := allowed
      simp only [Item.store] at readable
      split at readable
      next whole =>
        cases readable
        simp only [Item.words, List.cons_append, List.nil_append, parseItems, word, if_true, icmp,
          Bool.not_true, Bool.false_eq_true, if_false, whole, ne_eq, not_true_eq_false]
      next => cases readable

/-- **The loop succeeds on items that can be stored one after the other, and on nothing
else.** -/
theorem parseItems_iff (about : p.ip = true ∨ p.arp = true) (toks : List CStr) :
    parseItems host shift32 vlan p rule toks = .ok rule' ↔
      ∃ items : List Item, toks = items.flatMap Item.words ∧
        Item.Take host shift32 vlan p rule items rule' := by
  constructor
  · intro parsed
    fun_induction parseItems host shift32 vlan p rule toks with
    | case1 rule =>
        cases parsed
        exact ⟨[], rfl, .nil _⟩
    | case9 rule tok d toward tok' k kind ports target text toks operand reads next stored ih =>
        obtain ⟨items, rfl, takes⟩ := ih parsed
        rw [word_of_direction toward, word_of_operandKind kind]
        obtain ⟨free, rfl⟩ := (update_iff about (proto_of_port ports reads)).1 stored
        refine ⟨.endpoint d k text :: items, rfl, .cons ⟨ports, target⟩ ?_ free takes⟩
        simp only [Item.store, reads]
    | case13 rule icmp text toks value endptr reads whole toward ih =>
        obtain ⟨items, rfl, takes⟩ := ih parsed
        refine ⟨.type text :: items, rfl, .cons (by simpa [Item.Allowed] using icmp) ?_ trivial takes⟩
        simp only [Item.store, reads, not_not.1 whole, if_true]
    | _ => cases parsed
  · rintro ⟨items, rfl, takes⟩
    induction takes with
    | nil rule => simp only [List.flatMap_nil, parseItems]
    | cons allowed readable free rest ih =>
        rw [List.flatMap_cons, parseItems_item about allowed readable free]
        exact ih

end Loop

end ExanicCapture.Firewall
