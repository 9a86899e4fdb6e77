/-
# Firewall.Grammar -- the filter strings of the firewall

A filter is an action, an optional VLAN tag with an optional id, an optional protocol,
and items.  `exanicParseFilterString_iff`: a string is compiled exactly if its tokens
are the words of an acceptable filter, and the rule is that filter's.

No address and no port may be given twice, but the compiler finds that out from the
mask, so a network with an empty mask (`Item.Untested`) may be given again.
-/
import ExanicCapture.Filter.Meaning
import ExanicCapture.Firewall.Items

namespace ExanicCapture.Firewall

set_option autoImplicit false

open Theory Capture ExanicCapture.Filter Save

/-! ## The syntax -/

inductive ProtoWord where
  | tcp
  | udp
  | icmp
  | igmp
  | arp
  | ip
deriving DecidableEq

namespace ProtoWord

def word : ProtoWord → CStr
  | tcp => "tcp".toList
  | udp => "udp".toList
  | icmp => "icmp".toList
  | igmp => "igmp".toList
  | arp => "arp".toList
  | ip => "ip".toList

def protocols : ProtoWord → Protocols
  | tcp => ⟨true, true, false, false, false, false⟩
  | udp => ⟨true, false, true, false, false, false⟩
  | icmp => ⟨true, false, false, false, true, false⟩
  | igmp => ⟨true, false, false, false, false, true⟩
  | arp => ⟨false, false, false, true, false, false⟩
  | ip => ⟨true, false, false, false, false, false⟩

end ProtoWord

structure FirewallFilter where
  drop : Bool
  vlan : Option (Option CStr)
  proto : Option ProtoWord
  items : List Item

namespace FirewallFilter

variable (f : FirewallFilter)

def actionWord (drop : Bool) : CStr := if drop then "drop".toList else "allow".toList

def vlanWords : Option (Option CStr) → List CStr
  | none => []
  | some none => ["vlan".toList]
  | some (some id) => ["vlan".toList, id]

def vlanOf : Option (Option CStr) → Vlan
  | none => ⟨false, 0, 0⟩
  | some none => ⟨true, 0, 0⟩
  | some (some id) => ⟨true, .ofInt (strtol id).1, 0xFFFF⟩

def protoWords : Option ProtoWord → List CStr
  | none => []
  | some w => [w.word]

/-- Without a protocol, items are about IP. -/
def protocolsOf (proto : Option ProtoWord) (items : Bool) : Protocols :=
  match proto with
  | some w => w.protocols
  | none => if items then ProtoWord.ip.protocols else ⟨false, false, false, false, false, false⟩

def words : List CStr :=
  actionWord f.drop :: (vlanWords f.vlan ++ (protoWords f.proto ++ f.items.flatMap Item.words))

def protocols : Protocols := protocolsOf f.proto (f.items ≠ [])

def tagged : Bool := f.vlan.isSome

/-- The rule without its items. -/
def header (host : ByteOrder) : List (Ternary.Store UInt8) :=
  headers host (vlanOf f.vlan) f.protocols

end FirewallFilter

/-! ## The front of a filter -/

theorem parseAction_iff {toks rest : List CStr} {drop : Bool} :
    parseAction toks = .ok (drop, rest) ↔ toks = FirewallFilter.actionWord drop :: rest := by
  constructor
  · intro parsed
    unfold parseAction at parsed
    split at parsed
    next => cases parsed
    next tok toks =>
      split at parsed
      next same => cases parsed; rw [same]; rfl
      next =>
        split at parsed
        next same => cases parsed; rw [same]; rfl
        next => cases parsed
  · rintro rfl
    cases drop <;> rfl

/-- The token is a VLAN id that is readable. -/
def VlanId (id : CStr) : Prop := startsWithDigit id = true ∧ (strtol id).2 = []

/-- Neither `vlan` nor the beginning of an id. -/
def Plain (toks : List CStr) : Prop :=
  ∀ tok ∈ toks.head?, tok ≠ "vlan".toList ∧ startsWithDigit tok = false

theorem parseVlan_words {vlan : Option (Option CStr)} (id : ∀ id, vlan = some (some id) → VlanId id)
    {rest : List CStr} (plain : Plain rest) :
    parseVlan (FirewallFilter.vlanWords vlan ++ rest) = .ok (FirewallFilter.vlanOf vlan, rest) := by
  match vlan with
  | none =>
      cases rest with
      | nil => rfl
      | cons tok rest =>
          have other := (plain tok rfl).1
          simp only [FirewallFilter.vlanWords, List.nil_append, parseVlan, if_neg other]
          rfl
  | some none =>
      cases rest with
      | nil => rfl
      | cons tok rest =>
          have other := (plain tok rfl).2
          simp only [FirewallFilter.vlanWords, List.cons_append, List.nil_append, parseVlan, if_true,
            other, Bool.false_eq_true, if_false]
          rfl
  | some (some id') =>
      obtain ⟨digit, whole⟩ := id id' rfl
      simp only [FirewallFilter.vlanWords, List.cons_append, List.nil_append, parseVlan, if_true, digit,
        whole, ne_eq, not_true_eq_false, if_false]
      rfl

theorem parseVlan_ok {toks rest : List CStr} {v : Vlan} (parsed : parseVlan toks = .ok (v, rest)) :
    ∃ vlan, toks = FirewallFilter.vlanWords vlan ++ rest ∧ v = FirewallFilter.vlanOf vlan ∧
      ∀ id, vlan = some (some id) → VlanId id := by
  unfold parseVlan at parsed
  split at parsed
  next =>
    cases parsed
    exact ⟨none, rfl, rfl, fun id same => by cases same⟩
  next tok toks =>
    split at parsed
    next word =>
      split at parsed
      next =>
        cases parsed
        exact ⟨some none, by rw [word]; rfl, rfl, fun id same => by cases same⟩
      next id toks =>
        split at parsed
        next digit =>
          simp only at parsed
          split at parsed
          next => cases parsed
          next whole =>
            cases parsed
            refine ⟨some (some id), by rw [word]; rfl, rfl, ?_⟩
            rintro _ same
            cases same
            exact ⟨digit, not_not.1 whole⟩
        next =>
          cases parsed
          exact ⟨some none, by rw [word]; rfl, rfl, fun id same => by cases same⟩
    next =>
      cases parsed
      exact ⟨none, rfl, rfl, fun id same => by cases same⟩

theorem parseProtocol_word (w : ProtoWord) (rest : List CStr) :
    parseProtocol (w.word :: rest) = (w.protocols, rest) := by
  cases w <;> rfl

theorem parseProtocol_ok (toks : List CStr) :
    ∃ proto rest, toks = FirewallFilter.protoWords proto ++ rest ∧
      parseProtocol toks = (FirewallFilter.protocolsOf proto (rest ≠ []), rest) := by
  cases toks with
  | nil => exact ⟨none, [], rfl, rfl⟩
  | cons tok toks =>
      by_cases proto : ∃ w : ProtoWord, tok = w.word
      · obtain ⟨w, rfl⟩ := proto
        exact ⟨some w, toks, rfl, parseProtocol_word w toks⟩
      · have other : ∀ w : ProtoWord, ¬ tok = w.word := fun w same => proto ⟨w, same⟩
        refine ⟨none, tok :: toks, rfl, ?_⟩
        have tcp := other .tcp
        have udp := other .udp
        have icmp := other .icmp
        have igmp := other .igmp
        have arp := other .arp
        have ip := other .ip
        simp only [ProtoWord.word] at tcp udp icmp igmp arp ip
        simp only [parseProtocol, tcp, udp, icmp, igmp, arp, ip, if_false]
        rfl

/-! ## Fields -/

/-- What an item is about. -/
inductive Place where
  | addr (d : Direction)
  | port (d : Direction)
  | type
deriving DecidableEq

namespace Place

def offset (vlan : Bool) (p : Protocols) : Place → ℕ
  | addr d => Item.addrOffset vlan p d
  | port d => Item.portOffset vlan d
  | type => ipEnd vlan

def width : Place → ℕ
  | addr _ => 4
  | port _ => 2
  | type => 1

/-- The protocol has the field. -/
def Allowed (p : Protocols) : Place → Prop
  | addr d => d = .dst → p.arp = false
  | port _ => p.tcp = true ∨ p.udp = true
  | type => p.icmp = true

end Place

/-- What the flags say about each other once there are items. -/
structure Protocols.Consistent (p : Protocols) : Prop where
  ports : p.tcp = true ∨ p.udp = true → p.ip = true ∧ p.icmp = false
  icmp : p.icmp = true → p.ip = true
  network : p.ip = true ↔ p.arp = false

theorem FirewallFilter.protocolsOf_consistent (proto : Option ProtoWord) :
    (FirewallFilter.protocolsOf proto true).Consistent := by
  rcases proto with _ | w
  · exact ⟨by decide, by decide, by decide⟩
  · cases w <;> exact ⟨by decide, by decide, by decide⟩

/-- Two fields of one filter have no byte in common. -/
theorem Place.apart {vlan : Bool} {p : Protocols} (consistent : p.Consistent) {a b : Place}
    (allowed : a.Allowed p) (allowed' : b.Allowed p) (other : a ≠ b) :
    a.offset vlan p + a.width ≤ b.offset vlan p ∨ b.offset vlan p + b.width ≤ a.offset vlan p := by
  obtain ⟨ports, icmp, network⟩ := consistent
  cases a with
  | addr d =>
      cases b with
      | addr e =>
          have ip : p.ip = true := by
            rw [network]
            cases d <;> cases e <;> first | exact absurd rfl other | exact allowed rfl | exact allowed' rfl
          cases d <;> cases e <;> simp_all [offset, width, Item.addrOffset]
      | port e =>
          have ip := (ports allowed').1
          cases d <;> cases e <;> simp [offset, width, Item.addrOffset, Item.portOffset, ip, ipEnd]
      | type =>
          have ip := icmp allowed'
          cases d <;> simp [offset, width, Item.addrOffset, ip, ipEnd]
  | port d =>
      cases b with
      | addr e =>
          have ip := (ports allowed).1
          cases d <;> cases e <;> simp [offset, width, Item.addrOffset, Item.portOffset, ip, ipEnd]
      | port e => cases d <;> cases e <;> simp_all [offset, width, Item.portOffset]
      | type => exact absurd allowed' (by simp [Allowed, (ports allowed).2])
  | type =>
      cases b with
      | addr e =>
          have ip := icmp allowed
          cases e <;> simp [offset, width, Item.addrOffset, ip, ipEnd]
      | port e => exact absurd allowed (by simp [Allowed, (ports allowed').2])
      | type => exact absurd rfl other

/-! ## Reading an item -/

/-- Address and prefix length of a network. -/
def network (text : CStr) : Option (UInt32 × ℕ) :=
  match splitNetwork text with
  | .error _ => none
  | .ok (addrStr, bitsStr) =>
      match inetAton addrStr with
      | none => none
      | some addr =>
          let bits := (Int32.ofInt (strtol bitsStr).1).toInt
          if (strtol bitsStr).2 = [] ∧ 0 ≤ bits ∧ bits ≤ 32 then some (addr, bits.toNat) else none

theorem network_bits {text : CStr} {addr : UInt32} {bits : ℕ}
    (reads : network text = some (addr, bits)) : bits ≤ 32 := by
  unfold network at reads
  split at reads
  next => cases reads
  next =>
    split at reads
    next => cases reads
    next =>
      simp only at reads
      split at reads
      next inside =>
        cases reads
        omega
      next => cases reads

namespace Item

def place : Item → Place
  | endpoint d .port _ => .port d
  | endpoint d .host _ => .addr d
  | endpoint d .net _ => .addr d
  | type _ => .type

def Readable : Item → Prop
  | endpoint _ .port text => (strtol text).2 = []
  | endpoint _ .host text => (inetAton text).isSome = true
  | endpoint _ .net text => (network text).isSome = true
  | type text => (strtol text).2 = []

instance : (i : Item) → Decidable i.Readable
  | endpoint _ .port text => inferInstanceAs (Decidable ((strtol text).2 = []))
  | endpoint _ .host text => inferInstanceAs (Decidable ((inetAton text).isSome = true))
  | endpoint _ .net text => inferInstanceAs (Decidable ((network text).isSome = true))
  | type text => inferInstanceAs (Decidable ((strtol text).2 = []))

variable (host : ByteOrder) (shift32 : UInt32) (vlan : Bool) (p : Protocols)

/-- The mask of the item's address is empty. -/
def Untested : Item → Prop
  | endpoint _ .net text => shift32 = 0 ∧ ∃ addr, network text = some (addr, 0)
  | _ => False

/-- What a readable item is compiled to. -/
def compiled : Item → Ternary.Store UInt8
  | endpoint d .port text => operandStore host vlan p d (.port (.ofInt (strtol text).1))
  | endpoint d .host text =>
      operandStore host vlan p d (.addr (htonl host ((inetAton text).getD 0)) 0xFFFFFFFF)
  | endpoint d .net text =>
      let (addr, bits) := (network text).getD (0, 0)
      operandStore host vlan p d (.addr (htonl host addr) (ipNetmask host shift32 bits))
  | type text => field8 (ipEnd vlan) (.ofInt (strtol text).1) 0xFF

variable {host shift32 vlan p} {i : Item} {s : Ternary.Store UInt8}

theorem compiled_offset : (i.compiled host shift32 vlan p).offset = i.place.offset vlan p := by
  rcases i with ⟨d, k, text⟩ | text
  · cases k <;> rfl
  · rfl

theorem compiled_width : (i.compiled host shift32 vlan p).width = i.place.width := by
  rcases i with ⟨d, k, text⟩ | text
  · cases k <;> exact host.bytes_length _ _
  · rfl

/-- A network is read exactly if both its parts are. -/
theorem parseOperand_net (text : CStr) :
    (network text = none ∧ ∃ e, parseOperand host shift32 text .net = .error e) ∨
      ∃ addr bits, network text = some (addr, bits) ∧
        parseOperand host shift32 text .net =
          .ok (.addr (htonl host addr) (ipNetmask host shift32 (bits : ℕ))) := by
  simp only [network, parseOperand]
  cases splitNetwork text with
  | error e => exact .inl ⟨rfl, e, rfl⟩
  | ok parts =>
      obtain ⟨addrStr, bitsStr⟩ := parts
      dsimp only
      cases inetAton addrStr with
      | none => exact .inl ⟨rfl, _, rfl⟩
      | some addr =>
          dsimp only
          by_cases whole : (strtol bitsStr).2 = [] ∧ 0 ≤ (Int32.ofInt (strtol bitsStr).1).toInt ∧
              (Int32.ofInt (strtol bitsStr).1).toInt ≤ 32
          · refine .inr ⟨addr, _, if_pos whole, ?_⟩
            have inside : ¬ ((strtol bitsStr).2 ≠ [] ∨ (Int32.ofInt (strtol bitsStr).1).toInt < 0 ∨
                (Int32.ofInt (strtol bitsStr).1).toInt > 32) := by
              rintro (other | low | high)
              · exact other whole.1
              · omega
              · omega
            rw [if_neg inside, Int.toNat_of_nonneg whole.2.1]
          · refine .inl ⟨if_neg whole, _, if_pos ?_⟩
            by_contra inside
            simp only [not_or, not_not] at inside
            exact whole ⟨inside.1, by omega, by omega⟩

theorem store_iff : i.store host shift32 vlan p = some s ↔
    i.Readable ∧ s = i.compiled host shift32 vlan p := by
  rcases i with ⟨d, k, text⟩ | text
  · cases k with
    | port =>
        simp only [store, parseOperand, Readable, compiled]
        by_cases whole : (strtol text).2 = []
        · simp [whole, eq_comm]
        · simp [whole]
    | host =>
        simp only [store, parseOperand, Readable, compiled]
        cases inetAton text with
        | none => simp
        | some addr => simp [eq_comm]
    | net =>
        simp only [store, Readable, compiled]
        have either : _ ∨ ∃ addr bits, network text = some (addr, bits) ∧
            parseOperand host shift32 text .net = _ := parseOperand_net text
        rcases either with ⟨unread, e, refused⟩ | ⟨addr, bits, reads, parsed⟩
        · simp [unread, refused]
        · simp [reads, parsed, eq_comm]
  · simp only [store, Readable, compiled]
    by_cases whole : (strtol text).2 = []
    · simp [whole, eq_comm]
    · simp [whole]

theorem Allowed.place (allowed : i.Allowed p) : i.place.Allowed p := by
  rcases i with ⟨d, k, text⟩ | text
  · obtain ⟨ports, target⟩ := allowed
    have arp : d = .dst → p.arp = false := fun dst => by simpa [dst] using target
    cases k with
    | port => simpa [Item.place, Place.Allowed, ← not_or, imp_iff_or_not, or_comm] using ports
    | host => exact arp
    | net => exact arp
  · exact allowed

end Item

/-! ## Fields that are free -/

/-- The mask of a network in 32 bits. -/
theorem prefixMask_toNat {bits : ℕ} (some : bits ≠ 0) (most : bits ≤ 32) :
    ((0xFFFFFFFF : UInt32) <<< UInt32.ofNat (32 - (bits : Int)).toNat).toNat =
      2 ^ 32 - 2 ^ (32 - bits) := by
  have all : ∀ k < 32, ((0xFFFFFFFF : UInt32) <<< UInt32.ofNat k).toNat = 2 ^ 32 - 2 ^ k := by
    decide
  have k : (32 - (bits : Int)).toNat = 32 - bits := by omega
  rw [k]
  exact all _ (by omega)

section Free

variable {host : ByteOrder} {shift32 : UInt32} {vlan : Bool} {p : Protocols}

theorem ipNetmask_eq_zero {bits : ℕ} (most : bits ≤ 32) :
    ipNetmask host shift32 bits = 0 ↔ bits = 0 ∧ shift32 = 0 := by
  rw [ipNetmask, htonl_eq_zero]
  by_cases none : bits = 0
  · simp [none]
  · have small : 2 ^ (32 - bits) < 2 ^ 32 := Nat.pow_lt_pow_right (by decide) (by omega)
    have value := prefixMask_toNat none most
    rw [if_neg (by omega)]
    constructor
    · intro zero
      rw [zero] at value
      simp only [UInt32.toNat_zero] at value
      omega
    · exact fun both => absurd both.1 none

theorem Item.mask_eq_zero {i : Item} (other : i.place ≠ .type) (readable : i.Readable) :
    host.value (i.compiled host shift32 vlan p).mask = 0 ↔ i.Untested shift32 := by
  rcases i with ⟨d, k, text⟩ | text
  · cases k with
    | port =>
        have mask : host.value (host.bytes 2 (0xFFFF : UInt16).toNat) = 65535 :=
          host.value_bytes 2 _
        simp only [compiled, operandStore, field16, mask, Untested]
        decide
    | host =>
        have mask : host.value (host.bytes 4 (0xFFFFFFFF : UInt32).toNat) = 4294967295 :=
          host.value_bytes 4 _
        simp only [compiled, operandStore, field32, mask, Untested]
        decide
    | net =>
        obtain ⟨⟨addr, bits⟩, reads⟩ := Option.isSome_iff_exists.1 readable
        simp only [compiled, reads, Option.getD_some, operandStore, field32, Untested]
        have small : (ipNetmask host shift32 bits).toNat < 256 ^ 4 := UInt32.toNat_lt _
        rw [host.value_bytes, Nat.mod_eq_of_lt small, ← UInt32.toNat_zero, UInt32.toNat_inj, ipNetmask_eq_zero (network_bits reads)]
        simp [and_comm]
  · exact absurd rfl other

/-- Nothing has been stored there. -/
theorem unset_of_apart {ss : List (Ternary.Store UInt8)} {offset width : ℕ}
    (apart : ∀ s ∈ ss, s.offset + s.width ≤ offset ∨ offset + width ≤ s.offset) :
    unset host (Ternary.blank.stores ss) offset width = true := by
  have zeros : Memory.slice (Ternary.blank.stores ss).mask offset width =
      Memory.slice (fun _ => 0) offset width := by
    apply Memory.slice_congr
    intro i low high
    refine (Ternary.stores_of_not_covers _ fun s member covers => ?_).2
    have := apart s member
    unfold Ternary.Store.Covers at covers
    omega
  have none : ∀ n, ByteOrder.littleValue (List.replicate n 0) = 0 := by
    intro n
    induction n with
    | zero => rfl
    | succ n ih => rw [List.replicate_succ, ByteOrder.littleValue_cons, ih]; rfl
  rw [unset, zeros, decide_eq_true_eq]
  simp only [Memory.slice, List.map_const', List.length_range]
  cases host <;> simp only [ByteOrder.value, List.reverse_replicate, none]

/-- A store elsewhere does not matter. -/
theorem unset_store_apart {rule : Ternary UInt8} {s : Ternary.Store UInt8} {offset width : ℕ}
    (apart : s.offset + s.width ≤ offset ∨ offset + width ≤ s.offset) :
    unset host (rule.store s) offset width = unset host rule offset width := by
  have same : Memory.slice (rule.store s).mask offset width = Memory.slice rule.mask offset width := by
    apply Memory.slice_congr
    intro i low high
    refine (rule.store_of_not_covers fun covers => ?_).2
    unfold Ternary.Store.Covers at covers
    omega
  rw [unset, unset, same]

/-- **A field is free if all that was given for it before has an empty mask.** -/
theorem Item.free_iff (consistent : p.Consistent) (header : List (Ternary.Store UInt8)) {i : Item}
    {items : List Item} (outside : ∀ s ∈ header, ∀ a : Place, a.Allowed p →
      s.offset + s.width ≤ a.offset vlan p ∨ a.offset vlan p + a.width ≤ s.offset)
    (allowed : ∀ j ∈ items, j.Allowed p) (readable : ∀ j ∈ items, j.Readable)
    (once : items.Pairwise fun j k => j.place = k.place → j.place = .type ∨ j.Untested shift32)
    (mine : i.Allowed p) :
    i.Free host (Ternary.blank.stores (header ++ items.map (compiled host shift32 vlan p)))
        (i.compiled host shift32 vlan p) ↔
      ∀ j ∈ items, j.place = i.place → j.place = .type ∨ j.Untested shift32 := by
  by_cases type : i.place = .type
  · rcases i with ⟨d, k, text⟩ | text
    · cases k <;> cases type
    · exact ⟨fun _ j _ same => .inl (same.trans type), fun _ => trivial⟩
  have free : i.Free host (Ternary.blank.stores (header ++ items.map (compiled host shift32 vlan p)))
        (i.compiled host shift32 vlan p) ↔
      unset host (Ternary.blank.stores (header ++ items.map (compiled host shift32 vlan p)))
        (i.place.offset vlan p) i.place.width = true := by
    have offset : (i.compiled host shift32 vlan p).offset = _ := compiled_offset
    have width : (i.compiled host shift32 vlan p).width = _ := compiled_width
    rw [← offset, ← width]
    rcases i with ⟨d, k, text⟩ | text
    · rfl
    · exact absurd rfl type
  rw [free]
  clear free
  induction items using List.reverseRecOn with
  | nil =>
      simp only [List.map_nil, List.append_nil, List.not_mem_nil, false_implies, implies_true, iff_true]
      exact unset_of_apart fun s member => outside s member _ mine.place
  | append_singleton items j ih =>
      have theirs := allowed j (by simp)
      have offset : (j.compiled host shift32 vlan p).offset = _ := compiled_offset
      have width : (j.compiled host shift32 vlan p).width = _ := compiled_width
      have earlier := ih (fun k member => allowed k (List.mem_append_left _ member))
        (fun k member => readable k (List.mem_append_left _ member)) (List.pairwise_append.1 once).1
      have last := (List.pairwise_append.1 once).2.2
      have rule : Ternary.blank.stores (header ++ (items ++ [j]).map (compiled host shift32 vlan p)) =
          (Ternary.blank.stores (header ++ items.map (compiled host shift32 vlan p))).store
            (j.compiled host shift32 vlan p) := by
        rw [List.map_append, ← List.append_assoc]
        exact Ternary.stores_concat _ _ _
      by_cases same : j.place = i.place
      · -- the mask is that of `j`, and what was there before `j` had an empty one
        have mask := (Ternary.blank.stores
          (header ++ items.map (compiled host shift32 vlan p))).mask_store
            (j.compiled host shift32 vlan p)
        have other : j.place ≠ .type := fun here => type (same ▸ here)
        rw [offset, width] at mask
        rw [rule, unset, ← same, mask, decide_eq_true_eq,
          mask_eq_zero other (readable j (by simp))]
        constructor
        · intro untested k member there
          rcases List.mem_append.1 member with before | here
          · exact last k before j (List.mem_singleton_self _) there
          · rw [List.mem_singleton.1 here]
            exact .inr untested
        · intro all
          exact (all j (by simp) rfl).resolve_left other
      · have apart : j.place.offset vlan p + j.place.width ≤ i.place.offset vlan p ∨ _ :=
          Place.apart consistent theirs.place mine.place same
        rw [← offset, ← width] at apart
        rw [rule, unset_store_apart apart]
        refine earlier.trans ?_
        simp only [List.forall_mem_append, List.forall_mem_singleton, same, false_implies, and_true]

/-! ## The items of a filter -/

theorem header_end (v : Vlan) {s : Ternary.Store UInt8} (member : s ∈ headers host v p) :
    s.offset + s.width ≤ ethEnd v.vlan + 10 := by
  have two : ∀ offset pattern mask, (field16 host offset pattern mask).width = 2 :=
    fun _ _ _ => host.bytes_length _ _
  have one : ∀ offset pattern mask, (field8 offset pattern mask).width = 1 := fun _ _ _ => rfl
  have least : 14 ≤ ethEnd v.vlan := by
    unfold ethEnd
    split <;> omega
  have inside : ∀ {n : ℕ} {pattern mask : UInt16}, n ≤ ethEnd v.vlan + 8 →
      (field16 host n pattern mask).offset + (field16 host n pattern mask).width ≤
        ethEnd v.vlan + 10 := by
    intro n pattern mask low
    rw [two]
    show n + 2 ≤ _
    omega
  have inside' : ∀ {n : ℕ} {pattern mask : UInt8}, n ≤ ethEnd v.vlan + 9 →
      (field8 n pattern mask).offset + (field8 n pattern mask).width ≤ ethEnd v.vlan + 10 := by
    intro n pattern mask low
    rw [one]
    show n + 1 ≤ _
    omega
  unfold headers tagHeaders networkHeaders at member
  simp only [List.mem_append] at member
  rcases member with tag | network | transport
  · split at tag
    · simp only [List.mem_cons, List.not_mem_nil, or_false] at tag
      rcases tag with rfl | rfl <;> exact inside (by omega)
    · exact absurd tag List.not_mem_nil
  · split at network
    · simp only [List.mem_cons, List.not_mem_nil, or_false] at network
      rcases network with rfl | rfl
      · exact inside (by omega)
      · exact inside' (by omega)
    · split at network
      · simp only [List.mem_cons, List.not_mem_nil, or_false] at network
        rcases network with rfl | rfl | rfl | rfl | rfl
        · exact inside (by omega)
        · exact inside (by omega)
        · exact inside (by omega)
        · exact inside' (by omega)
        · exact inside' (by omega)
      · exact absurd network List.not_mem_nil
  · split at transport
    · rw [List.mem_singleton.1 transport]
      exact inside' (by omega)
    · split at transport
      · rw [List.mem_singleton.1 transport]
        exact inside' (by omega)
      · split at transport
        · rw [List.mem_singleton.1 transport]
          exact inside' (by omega)
        · split at transport
          · simp only [List.mem_cons, List.not_mem_nil, or_false] at transport
            rcases transport with rfl | rfl <;> exact inside' (by omega)
          · exact absurd transport List.not_mem_nil

theorem Place.offset_ge (a : Place) : ethEnd vlan + 12 ≤ a.offset vlan p := by
  cases a with
  | addr d =>
      cases d <;> simp only [offset, Item.addrOffset] <;> split <;> omega
  | port d => cases d <;> simp only [offset, Item.portOffset, ipEnd] <;> omega
  | type => simp only [offset, ipEnd]; omega

/-- Items that may stand side by side. -/
def Once (shift32 : UInt32) (items : List Item) : Prop :=
  items.Pairwise fun i j => i.place = j.place → i.place = .type ∨ i.Untested shift32

theorem Item.take_iff (consistent : p.Consistent) (v : Vlan) {rule : Ternary UInt8}
    (items : List Item) {done : List Item}
    (allowed : ∀ i ∈ done, i.Allowed p) (readable : ∀ i ∈ done, i.Readable)
    (once : Once shift32 done) :
    Take host shift32 v.vlan p
        (Ternary.blank.stores (headers host v p ++ done.map (compiled host shift32 v.vlan p)))
        items rule ↔
      (∀ i ∈ items, i.Allowed p ∧ i.Readable) ∧ Once shift32 (done ++ items) ∧
        rule = Ternary.blank.stores
          (headers host v p ++ (done ++ items).map (compiled host shift32 v.vlan p)) := by
  induction items generalizing done with
  | nil =>
      rw [List.append_nil]
      constructor
      · intro takes
        cases takes
        exact ⟨fun i member => absurd member List.not_mem_nil, once, rfl⟩
      · rintro ⟨-, -, rfl⟩
        exact .nil _
  | cons i items ih =>
      have free : i.Allowed p → (i.Free host
          (Ternary.blank.stores (headers host v p ++ done.map (compiled host shift32 v.vlan p)))
          (i.compiled host shift32 v.vlan p) ↔
            ∀ j ∈ done, j.place = i.place → j.place = .type ∨ j.Untested shift32) :=
        free_iff consistent (headers host v p) (fun s member a _ => .inl (by
          have low := header_end v member
          have high : ethEnd v.vlan + 12 ≤ a.offset v.vlan p := a.offset_ge
          omega)) allowed readable once
      have stored : (Ternary.blank.stores
          (headers host v p ++ done.map (compiled host shift32 v.vlan p))).store
            (i.compiled host shift32 v.vlan p) =
          Ternary.blank.stores
            (headers host v p ++ (done ++ [i]).map (compiled host shift32 v.vlan p)) := by
        rw [List.map_append, ← List.append_assoc]
        exact (Ternary.stores_concat _ _ _).symm
      have rest := fun (mine : i.Allowed p) (read : i.Readable) => @ih (done ++ [i])
        (List.forall_mem_append.2 ⟨allowed, List.forall_mem_singleton.2 mine⟩)
        (List.forall_mem_append.2 ⟨readable, List.forall_mem_singleton.2 read⟩)
      rw [List.append_assoc, List.singleton_append] at rest
      constructor
      · intro takes
        cases takes with
        | cons mine reads space takes =>
            obtain ⟨read, rfl⟩ := store_iff.1 reads
            have apart := (free mine).1 space
            rw [stored] at takes
            obtain ⟨all, onceAll, same⟩ := (rest mine read (List.pairwise_append.2
              ⟨once, List.pairwise_singleton _ _, fun j before k here => by
                rw [List.mem_singleton.1 here]
                exact apart j before⟩)).1 takes
            exact ⟨List.forall_mem_cons.2 ⟨⟨mine, read⟩, all⟩, onceAll, same⟩
      · rintro ⟨all, onceAll, same⟩
        obtain ⟨⟨mine, read⟩, others⟩ := List.forall_mem_cons.1 all
        obtain ⟨before, after, between⟩ := List.pairwise_append.1 onceAll
        have apart := fun j member => between j member i List.mem_cons_self
        refine .cons mine (store_iff.2 ⟨read, rfl⟩) ((free mine).2 apart) ?_
        rw [stored]
        refine (rest mine read (List.pairwise_append.2 ⟨once, List.pairwise_singleton _ _,
          fun j member k here => ?_⟩)).2 ⟨others, onceAll, same⟩
        rw [List.mem_singleton.1 here]
        exact apart j member

end Free

/-! ## Whole strings -/

namespace FirewallFilter

/-- What the compiler asks of a filter. -/
structure Accepted (shift32 : UInt32) (f : FirewallFilter) : Prop where
  vlanId : ∀ id, f.vlan = some (some id) → VlanId id
  allowed : ∀ i ∈ f.items, i.Allowed f.protocols
  readable : ∀ i ∈ f.items, i.Readable
  once : Once shift32 f.items

/-- The rule of a filter. -/
def rule (host : ByteOrder) (shift32 : UInt32) (f : FirewallFilter) : Ternary UInt8 :=
  Ternary.blank.stores
    (headers host (vlanOf f.vlan) f.protocols ++
      f.items.map (Item.compiled host shift32 (vlanOf f.vlan).vlan f.protocols))

end FirewallFilter

theorem Item.flatMap_words_eq_nil {items : List Item} :
    items.flatMap words = [] ↔ items = [] := by
  cases items with
  | nil => simp
  | cons i items => cases i <;> simp [words]

/-- What follows the action and the VLAN is not taken for either. -/
theorem plain_words (proto : Option ProtoWord) (items : List Item) :
    Plain (FirewallFilter.protoWords proto ++ items.flatMap Item.words) := by
  intro tok first
  match proto with
  | some w =>
      cases first
      cases w <;> decide
  | none =>
      cases items with
      | nil => cases first
      | cons i items =>
          rcases i with ⟨d, k, text⟩ | text
          · cases first
            cases d <;> decide
          · cases first
            decide

theorem parseProtocol_words (proto : Option ProtoWord) (items : List Item) :
    parseProtocol (FirewallFilter.protoWords proto ++ items.flatMap Item.words) =
      (FirewallFilter.protocolsOf proto (items ≠ []), items.flatMap Item.words) := by
  match proto with
  | some w => exact parseProtocol_word w _
  | none =>
      cases items with
      | nil => rfl
      | cons i items =>
          rcases i with ⟨d, k, text⟩ | text
          · cases d <;> rfl
          · rfl

/-- The items of a filter, compiled behind its header. -/
theorem parseItems_header {host : ByteOrder} {shift32 : UInt32} {v : Vlan}
    {proto : Option ProtoWord} {rule : Ternary UInt8} (toks : List CStr) :
    parseItems host shift32 v.vlan (FirewallFilter.protocolsOf proto (toks ≠ []))
        (Ternary.blank.stores (headers host v (FirewallFilter.protocolsOf proto (toks ≠ [])))) toks =
          .ok rule ↔
      ∃ items : List Item, toks = items.flatMap Item.words ∧
        (∀ i ∈ items, i.Allowed (FirewallFilter.protocolsOf proto (toks ≠ [])) ∧ i.Readable) ∧
        Once shift32 items ∧
        rule = Ternary.blank.stores
          (headers host v (FirewallFilter.protocolsOf proto (toks ≠ [])) ++
            items.map (Item.compiled host shift32 v.vlan
              (FirewallFilter.protocolsOf proto (toks ≠ [])))) := by
  by_cases none : toks = []
  · subst none
    simp only [parseItems, Except.ok.injEq]
    constructor
    · rintro rfl
      exact ⟨[], rfl, by simp, List.Pairwise.nil, by simp⟩
    · rintro ⟨items, empty, -, -, rfl⟩
      rw [Item.flatMap_words_eq_nil.1 empty.symm, List.map_nil, List.append_nil]
  · have some : decide (toks ≠ []) = true := by simpa using none
    rw [some]
    have consistent := FirewallFilter.protocolsOf_consistent proto
    have about : (FirewallFilter.protocolsOf proto true).ip = true ∨
        (FirewallFilter.protocolsOf proto true).arp = true := by
      rw [consistent.network]
      cases (FirewallFilter.protocolsOf proto true).arp <;> simp
    rw [parseItems_iff about]
    refine exists_congr fun items => and_congr_right fun _ => ?_
    have takes : Item.Take host shift32 v.vlan _
        (Ternary.blank.stores (headers host v (FirewallFilter.protocolsOf proto true) ++ [].map _))
        items rule ↔ _ :=
      Item.take_iff consistent v items (by simp) (by simp) (List.Pairwise.nil : Once shift32 [])
    simpa using takes

/-- What the compiler makes of a string is the rule of the filter it is. -/
theorem parses_iff {host : ByteOrder} {shift32 : UInt32} {filter : CStr} {drop : Bool}
    {rule : Ternary UInt8} :
    exanicParseFilterString host shift32 filter = .ok (drop, rule) ↔
      filter.length < exanicFilterStringMaxLen ∧
        ∃ f : FirewallFilter, strtok ' ' filter = f.words ∧ f.Accepted shift32 ∧ drop = f.drop ∧
          rule = f.rule host shift32 := by
  have some : ∀ items : List Item,
      decide (items.flatMap Item.words ≠ []) = decide (items ≠ []) := fun items => by
    rw [decide_eq_decide, ne_eq, ne_eq, Item.flatMap_words_eq_nil]
  unfold exanicParseFilterString
  constructor
  · intro parsed
    split at parsed
    next => cases parsed
    next short =>
      split at parsed
      next => cases parsed
      next drop' toks action =>
        split at parsed
        next => cases parsed
        next v toks' vlan =>
          obtain ⟨proto, rest, words, protocol⟩ := parseProtocol_ok toks'
          simp only [protocol] at parsed
          split at parsed
          next => cases parsed
          next rule' loop =>
            cases parsed
            obtain ⟨vlanText, tagged, rfl, vlanId⟩ := parseVlan_ok vlan
            obtain ⟨items, rfl, proper, once, rfl⟩ := (parseItems_header _).1 loop
            rw [some] at proper ⊢
            have positive : 0 < exanicFilterStringMaxLen := by decide
            refine ⟨by omega, ⟨drop, vlanText, proto, items⟩, ?_, ?_, rfl, rfl⟩
            · rw [parseAction_iff.1 action, tagged, words]
              rfl
            · exact ⟨vlanId, fun i member => (proper i member).1,
                fun i member => (proper i member).2, once⟩
  · rintro ⟨short, f, words, accepted, rfl, rfl⟩
    have loop : parseItems host shift32 (FirewallFilter.vlanOf f.vlan).vlan
        (FirewallFilter.protocolsOf f.proto (f.items ≠ []))
        (Ternary.blank.stores (headers host (FirewallFilter.vlanOf f.vlan)
          (FirewallFilter.protocolsOf f.proto (f.items ≠ []))))
        (f.items.flatMap Item.words) = .ok (f.rule host shift32) := by
      have proper : ∀ i ∈ f.items,
          i.Allowed (FirewallFilter.protocolsOf f.proto (f.items ≠ [])) ∧ i.Readable :=
        fun i member => ⟨accepted.allowed i member, accepted.readable i member⟩
      rw [FirewallFilter.rule, FirewallFilter.protocols]
      rw [← some f.items] at proper ⊢
      exact (parseItems_header _).2 ⟨f.items, rfl, proper, accepted.once, rfl⟩
    rw [if_neg (by omega), words, FirewallFilter.words, parseAction_iff.2 rfl]
    simp only [parseVlan_words accepted.vlanId (plain_words f.proto f.items), parseProtocol_words,
      loop]

/-- **A string is compiled exactly if its tokens are the words of an acceptable
filter.** -/
theorem exanicParseFilterString_iff (host : ByteOrder) (shift32 : UInt32) (filter : CStr) :
    (∃ drop rule, exanicParseFilterString host shift32 filter = .ok (drop, rule)) ↔
      filter.length < exanicFilterStringMaxLen ∧
        ∃ f : FirewallFilter, strtok ' ' filter = f.words ∧ f.Accepted shift32 := by
  simp only [parses_iff]
  constructor
  · rintro ⟨_, _, short, f, words, accepted, -, -⟩
    exact ⟨short, f, words, accepted⟩
  · rintro ⟨short, f, words, accepted⟩
    exact ⟨f.drop, f.rule host shift32, short, f, words, accepted, rfl, rfl⟩

end ExanicCapture.Firewall
