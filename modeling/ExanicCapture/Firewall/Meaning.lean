/-
# Firewall.Meaning -- which frames a firewall rule matches

The card applies the mask to the first `EXANIC_FILTER_SIZE` bytes of a frame and
compares with the pattern.  `FirewallFilter.Means` says which frames a filter is about:
those with the tag, the headers, the addresses and the numbers that its words name.

The compiler has some ideas of its own.  A VLAN id is compared with the whole tag,
priority included; numbers are cut to the width of their field; only an IP header without
options is matched, except for IGMP; a network that has bits set behind its prefix matches
no frame, and one without a prefix depends on a shift that C leaves undefined; and of
several ICMP types the last one counts.  `FirewallFilter.Holds` is this meaning, and the
rule has it for every filter (`FirewallFilter.rule_matches`).  The two agree where none
of it matters: on plain frames, for filters that name what fits (`FirewallFilter.Fits`).
`exanicParseFilterString_means` says both.
-/
import ExanicCapture.Firewall.Grammar

namespace ExanicCapture.Firewall

set_option autoImplicit false

open Theory Capture ExanicCapture.Filter Save Ternary

/-! ## Frames -/

section Frame

variable (vlan : Bool) (p : Protocols) (frame : ℕ → UInt8)

def etherType : ℕ := bigField frame (ethEnd vlan - 2) 2
def ipVersion : ℕ := (frame (ethEnd vlan)).toNat / 16
def ipHeaderLength : ℕ := (frame (ethEnd vlan)).toNat % 16
def ipProtocol : UInt8 := frame (ethEnd vlan + 9)

/-- The tag, if the filter is about one. -/
def TagHolds : Option (Option CStr) → Prop
  | none => True
  | some none => bigField frame 12 2 = 0x8100
  | some (some id) => bigField frame 12 2 = 0x8100 ∧
      bigField frame 14 2 = ((strtol id).1 % 65536).toNat

/-- An IP packet; for IGMP the header may have options. -/
@[mk_iff]
structure IpHolds : Prop where
  etherType : etherType vlan frame = 0x0800
  version : ipVersion vlan frame = 4
  headerLength : p.igmp = false → ipHeaderLength vlan frame = 5
  tcp : p.tcp = true → ipProtocol vlan frame = 6
  udp : p.udp = true → ipProtocol vlan frame = 17
  icmp : p.icmp = true → ipProtocol vlan frame = 1
  igmp : p.igmp = true → ipProtocol vlan frame = 2

/-- ARP for Ethernet and IP. -/
@[mk_iff]
structure ArpHolds : Prop where
  etherType : etherType vlan frame = 0x0806
  hardware : bigField frame (ethEnd vlan) 2 = 1
  protocol : bigField frame (ethEnd vlan + 2) 2 = 0x0800
  hardwareLength : frame (ethEnd vlan + 4) = 6
  protocolLength : frame (ethEnd vlan + 5) = 4

/-- The address has the first `bits` bits of the network.  For no bits at all the
compiler's mask is what the shift has given. -/
def InNetwork (shift32 addr : UInt32) (bits found : ℕ) : Prop :=
  if bits = 0 then found &&& shift32.toNat = addr.toNat
  else found / 2 ^ (32 - bits) = addr.toNat / 2 ^ (32 - bits) ∧ 2 ^ (32 - bits) ∣ addr.toNat

def Item.Holds (shift32 : UInt32) : Item → Prop
  | endpoint d .port text =>
      bigField frame (portOffset vlan d) 2 = ((strtol text).1 % 65536).toNat
  | endpoint d .host text =>
      ∃ addr, inetAton text = some addr ∧ bigField frame (addrOffset vlan p d) 4 = addr.toNat
  | endpoint d .net text =>
      ∃ addr bits, network text = some (addr, bits) ∧
        InNetwork shift32 addr bits (bigField frame (addrOffset vlan p d) 4)
  | type text => (frame (ipEnd vlan)).toNat = ((strtol text).1 % 256).toNat

end Frame

/-- The items that no later one is about the same field as. -/
def settled : List Item → List Item
  | [] => []
  | i :: items => if ∀ j ∈ items, j.place ≠ i.place then i :: settled items else settled items

theorem settled_sublist (items : List Item) : (settled items).Sublist items := by
  induction items with
  | nil => exact .slnil
  | cons i items ih =>
      rw [settled]
      split
      next => exact ih.cons_cons i
      next => exact ih.cons i

/-- What a filter says about a frame. -/
structure FirewallFilter.Holds (shift32 : UInt32) (f : FirewallFilter) (frame : ℕ → UInt8) :
    Prop where
  tag : TagHolds frame f.vlan
  ip : f.protocols.ip = true → IpHolds f.vlan.isSome f.protocols frame
  arp : f.protocols.arp = true → ArpHolds f.vlan.isSome frame
  items : ∀ i ∈ settled f.items, i.Holds f.vlan.isSome f.protocols frame shift32

/-! ## What the words say -/

/-- The text is the number, in decimal. -/
def Names (text : CStr) (n : ℕ) : Prop := decimalValue text = some (n : Int)

instance (text : CStr) (n : ℕ) : Decidable (Names text n) := by
  unfold Names
  infer_instance

/-- The text is the address and the prefix length, with a slash between them. -/
def NamesNetwork (text : CStr) (addr : UInt32) (bits : ℕ) : Prop :=
  ∃ addrStr bitsStr, splitNetwork text = .ok (addrStr, bitsStr) ∧
    inetAton addrStr = some addr ∧ Names bitsStr bits

section Words

variable (vlan : Bool) (p : Protocols) (frame : ℕ → UInt8)

/-- The frame has the tag; the VLAN id is the low 12 bits of the TCI. -/
def TagMeans : Option (Option CStr) → Prop
  | none => True
  | some none => bigField frame 12 2 = 0x8100
  | some (some id) => bigField frame 12 2 = 0x8100 ∧ Names id (bigField frame 14 2 % 4096)

/-- An IPv4 packet of the protocol. -/
structure IpMeans : Prop where
  etherType : etherType vlan frame = 0x0800
  version : ipVersion vlan frame = 4
  tcp : p.tcp = true → ipProtocol vlan frame = 6
  udp : p.udp = true → ipProtocol vlan frame = 17
  icmp : p.icmp = true → ipProtocol vlan frame = 1
  igmp : p.igmp = true → ipProtocol vlan frame = 2

/-- Where the IP header ends, options included. -/
def payloadOffset : ℕ := ethEnd vlan + 4 * ipHeaderLength vlan frame

def Item.Means : Item → Prop
  | endpoint .dst .port text => Names text (bigField frame (payloadOffset vlan frame + 2) 2)
  | endpoint .src .port text => Names text (bigField frame (payloadOffset vlan frame) 2)
  | endpoint d .host text =>
      ∃ addr, inetAton text = some addr ∧ bigField frame (addrOffset vlan p d) 4 = addr.toNat
  | endpoint d .net text =>
      ∃ addr bits, NamesNetwork text addr bits ∧
        bigField frame (addrOffset vlan p d) 4 / 2 ^ (32 - bits) = addr.toNat / 2 ^ (32 - bits)
  | type text => Names text (frame (payloadOffset vlan frame)).toNat

/-- The item names something that its field can hold, and a network nothing behind its
prefix. -/
def Item.Fits : Item → Prop
  | endpoint _ .port text => ∃ n < 65536, Names text n
  | endpoint _ .host _ => True
  | endpoint _ .net text =>
      ∃ addr bits, NamesNetwork text addr bits ∧ 1 ≤ bits ∧ bits ≤ 32 ∧
        2 ^ (32 - bits) ∣ addr.toNat
  | type text => ∃ n < 256, Names text n

end Words

/-- What a filter says about a frame, in the words of the headers. -/
structure FirewallFilter.Means (f : FirewallFilter) (frame : ℕ → UInt8) : Prop where
  tag : TagMeans frame f.vlan
  ip : f.protocols.ip = true → IpMeans f.vlan.isSome f.protocols frame
  arp : f.protocols.arp = true → ArpHolds f.vlan.isSome frame
  items : ∀ i ∈ f.items, i.Means f.vlan.isSome f.protocols frame

/-- The filter names a VLAN and operands that exist, and one ICMP type at most. -/
structure FirewallFilter.Fits (f : FirewallFilter) : Prop where
  vlanId : ∀ id, f.vlan = some (some id) → ∃ n < 4096, Names id n
  items : ∀ i ∈ f.items, i.Fits
  types : ∀ a b, .type a ∈ f.items → .type b ∈ f.items → decimalValue a = decimalValue b

/-- The frame has no priority in its tag if the filter names a VLAN, and no options in its
IP header unless the filter is about IGMP. -/
structure FirewallFilter.Plain (f : FirewallFilter) (frame : ℕ → UInt8) : Prop where
  tag : ∀ id, f.vlan = some (some id) → bigField frame 14 2 < 4096
  header : IpMeans f.vlan.isSome f.protocols frame → f.protocols.igmp = false →
    ipHeaderLength f.vlan.isSome frame = 5

/-! ## Tests -/

section Tests

variable {host : ByteOrder} {frame : ℕ → UInt8}

theorem bytes_htonl (v : UInt32) :
    host.bytes 4 (htonl host v).toNat = ByteOrder.big.bytes 4 v.toNat := by
  rw [toNat_htonl, ByteOrder.bytes_recode]

theorem htons_ones : 0xFFFF = htons host 0xFFFF := by cases host <;> decide

theorem htonl_ones : 0xFFFFFFFF = htonl host 0xFFFFFFFF := by cases host <;> decide

theorem field16_masked (offset : ℕ) (v m : UInt16) :
    (field16 host offset (htons host v) (htons host m)).Test frame ↔
      bigField frame offset 2 &&& m.toNat = v.toNat :=
  Store.test_bigField (bytes_htons host v) (bytes_htons host m) v.toNat_lt frame

theorem field32_masked (offset : ℕ) (v m : UInt32) :
    (field32 host offset (htonl host v) (htonl host m)).Test frame ↔
      bigField frame offset 4 &&& m.toNat = v.toNat :=
  Store.test_bigField (bytes_htonl v) (bytes_htonl m) v.toNat_lt frame

theorem field16_test (offset : ℕ) (v : UInt16) :
    (field16 host offset (htons host v) 0xFFFF).Test frame ↔
      bigField frame offset 2 = v.toNat := by
  have small : bigField frame offset 2 < 2 ^ 16 := bigField_lt frame offset 2
  have ones : (0xFFFF : UInt16).toNat = 2 ^ 16 - 1 := rfl
  have masked : (field16 host offset (htons host v) (htons host 0xFFFF)).Test frame ↔ _ :=
    field16_masked offset v 0xFFFF
  rwa [← htons_ones, ones, Nat.and_two_pow_sub_one_of_lt_two_pow small] at masked

theorem field32_test (offset : ℕ) (v : UInt32) :
    (field32 host offset (htonl host v) 0xFFFFFFFF).Test frame ↔
      bigField frame offset 4 = v.toNat := by
  have small : bigField frame offset 4 < 2 ^ 32 := bigField_lt frame offset 4
  have ones : (0xFFFFFFFF : UInt32).toNat = 2 ^ 32 - 1 := rfl
  have masked : (field32 host offset (htonl host v) (htonl host 0xFFFFFFFF)).Test frame ↔ _ :=
    field32_masked offset v 0xFFFFFFFF
  rwa [← htonl_ones, ones, Nat.and_two_pow_sub_one_of_lt_two_pow small] at masked

theorem field8_masked (offset : ℕ) (v m : UInt8) :
    (field8 offset v m).Test frame ↔ (frame offset).toNat &&& m.toNat = v.toNat := by
  rw [← UInt8.toNat_and, UInt8.toNat_inj]
  simp [Store.Test, field8, Store.width, Memory.slice]

theorem field8_test (offset : ℕ) (v : UInt8) :
    (field8 offset v 0xFF).Test frame ↔ frame offset = v := by
  have small : (frame offset).toNat < 2 ^ 8 := (frame offset).toNat_lt
  have ones : (0xFF : UInt8).toNat = 2 ^ 8 - 1 := rfl
  rw [field8_masked, ones, Nat.and_two_pow_sub_one_of_lt_two_pow small, UInt8.toNat_inj]

/-- Version 4, and five words of header. -/
theorem plainHeader_iff (byte : UInt8) : byte = 0x45 ↔ byte.toNat / 16 = 4 ∧ byte.toNat % 16 = 5 := by
  rw [← UInt8.toNat_inj]
  have value : (0x45 : UInt8).toNat = 69 := rfl
  omega

/-- Version 4. -/
theorem field8_anyHeader (offset : ℕ) :
    (field8 offset 0x40 0xF0).Test frame ↔ (frame offset).toNat / 16 = 4 := by
  have all : ∀ n < 256, n &&& 240 = 64 ↔ n / 16 = 4 := by decide +kernel
  rw [field8_masked]
  exact all _ (frame offset).toNat_lt

theorem toNat_ofInt16 (n : Int) : (UInt16.ofInt n).toNat = (n % 65536).toNat := by
  rw [UInt16.ofInt, UInt16.toNat_ofNat']
  omega

theorem toNat_ofInt8 (n : Int) : (UInt8.ofInt n).toNat = (n % 256).toNat := by
  rw [UInt8.ofInt, UInt8.toNat_ofNat']
  omega

end Tests

/-! ## Items -/

section Items

variable {host : ByteOrder} {shift32 : UInt32} {vlan : Bool} {p : Protocols}

theorem Item.compiled_same {i j : Item} (same : i.place = j.place) :
    (i.compiled host shift32 vlan p).Same (j.compiled host shift32 vlan p) := by
  rw [Store.Same, compiled_offset, compiled_offset, compiled_width, compiled_width, same]
  exact ⟨rfl, rfl⟩

/-- Items share a field or no byte. -/
theorem Item.compiled_apart (consistent : p.Consistent) {i j : Item} (mine : i.Allowed p)
    (theirs : j.Allowed p) :
    (i.compiled host shift32 vlan p).Apart (j.compiled host shift32 vlan p) ↔ i.place ≠ j.place := by
  rw [Store.Apart, compiled_offset, compiled_offset, compiled_width, compiled_width]
  constructor
  · intro apart same
    have wide : 0 < j.place.width := by cases j.place <;> simp [Place.width]
    rw [same] at apart
    omega
  · exact Place.apart consistent mine.place theirs.place

theorem lasts_compiled (consistent : p.Consistent) {items : List Item}
    (allowed : ∀ i ∈ items, i.Allowed p) :
    lasts (items.map (Item.compiled host shift32 vlan p)) =
      (settled items).map (Item.compiled host shift32 vlan p) := by
  induction items with
  | nil => rfl
  | cons i items ih =>
      obtain ⟨mine, others⟩ := List.forall_mem_cons.1 allowed
      have later : (∀ s ∈ items.map (Item.compiled host shift32 vlan p),
            (i.compiled host shift32 vlan p).Apart s) ↔ ∀ j ∈ items, j.place ≠ i.place := by
        rw [List.forall_mem_map]
        refine forall₂_congr fun j member => ?_
        rw [Item.compiled_apart consistent mine (others j member), ne_comm]
      rw [List.map_cons, lasts, settled, ih others]
      simp only [later]
      split <;> rfl

theorem inNetwork_iff {addr : UInt32} {bits found : ℕ} (most : bits ≤ 32) (small : found < 2 ^ 32) :
    found &&& (if (bits : Int) = 0 then shift32
      else 0xFFFFFFFF <<< UInt32.ofNat (32 - (bits : Int)).toNat).toNat = addr.toNat ↔
        InNetwork shift32 addr bits found := by
  unfold InNetwork
  by_cases none : bits = 0
  · rw [if_pos none, if_pos (by omega)]
  · rw [if_neg none, if_neg (by omega), prefixMask_toNat none most]
    exact and_prefix _ (by omega) small

/-- An item tests what it says. -/
theorem Item.test_iff (frame : ℕ → UInt8) {i : Item} (readable : i.Readable) :
    (i.compiled host shift32 vlan p).Test frame ↔ i.Holds vlan p frame shift32 := by
  rcases i with ⟨d, k, text⟩ | text
  · cases k with
    | port =>
        rw [Holds, ← toNat_ofInt16]
        exact field16_test _ _
    | host =>
        obtain ⟨addr, reads⟩ := Option.isSome_iff_exists.1 readable
        simp only [compiled, Holds, reads, Option.getD_some, Option.some.injEq, exists_eq_left']
        exact field32_test _ _
    | net =>
        obtain ⟨⟨addr, bits⟩, reads⟩ := Option.isSome_iff_exists.1 readable
        simp only [compiled, Holds, reads, Option.getD_some, Option.some.injEq, Prod.mk.injEq,
          and_assoc, exists_and_left, exists_eq_left']
        exact (field32_masked _ _ _).trans
          (inNetwork_iff (network_bits reads) (bigField_lt frame _ 4))
  · rw [Holds, ← toNat_ofInt8, UInt8.toNat_inj]
    exact field8_test _ _

end Items

/-! ## Headers -/

section Headers

variable {host : ByteOrder} {v : Vlan} {p : Protocols}

@[simp] theorem field8_offset (offset : ℕ) (pattern mask : UInt8) :
    (field8 offset pattern mask).offset = offset := rfl

@[simp] theorem field8_width (offset : ℕ) (pattern mask : UInt8) :
    (field8 offset pattern mask).width = 1 := rfl

@[simp] theorem field16_offset (offset : ℕ) (pattern mask : UInt16) :
    (field16 host offset pattern mask).offset = offset := rfl

@[simp] theorem field16_width (offset : ℕ) (pattern mask : UInt16) :
    (field16 host offset pattern mask).width = 2 := host.bytes_length _ _

theorem vlanOf_isSome (vlan : Option (Option CStr)) :
    (FirewallFilter.vlanOf vlan).vlan = vlan.isSome := by
  rcases vlan with _ | _ | id <;> rfl

theorem test_tagHeaders (vlan : Option (Option CStr)) (frame : ℕ → UInt8) :
    (∀ s ∈ lasts (tagHeaders host (FirewallFilter.vlanOf vlan)), s.Test frame) ↔
      TagHolds frame vlan := by
  have known : (field16 host 12 (htons host 0x8100) 0xFFFF).Test frame ↔ _ := field16_test 12 0x8100
  have value : (0x8100 : UInt16).toNat = 0x8100 := rfl
  rcases vlan with _ | _ | id
  · simp [tagHeaders, FirewallFilter.vlanOf, lasts, TagHolds]
  · simp [tagHeaders, FirewallFilter.vlanOf, lasts, Store.Apart, TagHolds, known, field16_masked]
  · have ones : (htons host 0xFFFF) = 0xFFFF := htons_ones.symm
    simp [tagHeaders, FirewallFilter.vlanOf, lasts, Store.Apart, TagHolds, known, ones,
      field16_test, toNat_ofInt16]

theorem test_networkHeaders (vlan : Bool) (w : ProtoWord) (frame : ℕ → UInt8) :
    (∀ s ∈ lasts (networkHeaders host vlan w.protocols), s.Test frame) ↔
      (w.protocols.ip = true → IpHolds vlan w.protocols frame) ∧
        (w.protocols.arp = true → ArpHolds vlan frame) := by
  have ipType : ∀ n, (field16 host n (htons host 0x0800) 0xFFFF).Test frame ↔ _ := fun n =>
    field16_test n 0x0800
  have arpType : ∀ n, (field16 host n (htons host 0x0806) 0xFFFF).Test frame ↔ _ := fun n =>
    field16_test n 0x0806
  have hardware : ∀ n, (field16 host n (htons host 1) 0xFFFF).Test frame ↔ _ := fun n =>
    field16_test n 1
  cases vlan <;> cases w <;>
    simp [networkHeaders, ProtoWord.protocols, lasts, Store.Apart, ethEnd, field8_anyHeader,
      field8_test, ipType, arpType, hardware, ipHolds_iff, arpHolds_iff, etherType, ipVersion,
      ipHeaderLength, ipProtocol, plainHeader_iff, and_assoc]
  · exact fun _ => and_comm
  · exact fun _ => and_comm

theorem tidy_tagHeaders (v : Vlan) : Tidy (tagHeaders host v) := by
  unfold tagHeaders
  split <;> simp [Tidy, Store.Same, Store.Apart]

theorem tidy_networkHeaders (vlan : Bool) (w : ProtoWord) :
    Tidy (networkHeaders host vlan w.protocols) := by
  cases vlan <;> cases w <;>
    simp [networkHeaders, ProtoWord.protocols, Tidy, Store.Same, Store.Apart, ethEnd]

theorem apart_headers (v : Vlan) (w : ProtoWord) :
    ∀ s ∈ tagHeaders host v, ∀ t ∈ networkHeaders host v.vlan w.protocols, s.Apart t := by
  obtain ⟨vlan, tci, mask⟩ := v
  cases vlan <;> cases w <;>
    simp [tagHeaders, networkHeaders, ProtoWord.protocols, Store.Apart, ethEnd]

end Headers

/-! ## Rules -/

theorem Place.offset_le (a : Place) {vlan : Bool} {p : Protocols} :
    a.offset vlan p + a.width ≤ exanicFilterSize := by
  have most : ethEnd vlan ≤ 18 := by
    unfold ethEnd
    split <;> omega
  have size : exanicFilterSize = 44 := rfl
  cases a with
  | addr d => cases d <;> simp only [offset, Item.addrOffset, width] <;> split <;> omega
  | port d => cases d <;> simp only [offset, Item.portOffset, ipEnd, width] <;> omega
  | type => simp only [offset, ipEnd, width]; omega

namespace FirewallFilter

variable {host : ByteOrder} {shift32 : UInt32} {f : FirewallFilter}

/-- Items are never without a protocol. -/
theorem protocols_cases (f : FirewallFilter) :
    (f.protocols = ⟨false, false, false, false, false, false⟩ ∧ f.items = []) ∨
      ∃ w : ProtoWord, f.protocols = w.protocols := by
  unfold protocols protocolsOf
  cases f.proto with
  | some w => exact .inr ⟨w, rfl⟩
  | none =>
      by_cases empty : f.items = []
      · exact .inl ⟨by simp [empty], empty⟩
      · exact .inr ⟨.ip, by simp [empty]⟩

theorem tidy_header (host : ByteOrder) (f : FirewallFilter) : Tidy (f.header host) := by
  unfold header headers
  rcases f.protocols_cases with ⟨none, -⟩ | ⟨w, proto⟩
  · rw [none]
    simpa [networkHeaders] using tidy_tagHeaders (vlanOf f.vlan)
  · rw [proto]
    exact (tidy_tagHeaders _).append (tidy_networkHeaders _ w) (apart_headers _ w)

theorem test_header (f : FirewallFilter) (frame : ℕ → UInt8) :
    (∀ s ∈ lasts (f.header host), s.Test frame) ↔
      TagHolds frame f.vlan ∧ (f.protocols.ip = true → IpHolds f.vlan.isSome f.protocols frame) ∧
        (f.protocols.arp = true → ArpHolds f.vlan.isSome frame) := by
  unfold header headers
  rcases f.protocols_cases with ⟨none, -⟩ | ⟨w, proto⟩
  · rw [none]
    simpa [networkHeaders] using test_tagHeaders f.vlan frame
  · rw [proto, lasts_append (apart_headers _ w), List.forall_mem_append, test_tagHeaders,
      test_networkHeaders, vlanOf_isSome]

/-- The stores for the items. -/
def itemStores (host : ByteOrder) (shift32 : UInt32) (f : FirewallFilter) : List (Store UInt8) :=
  f.items.map (Item.compiled host shift32 (vlanOf f.vlan).vlan f.protocols)

theorem apart_items : ∀ s ∈ f.header host, ∀ t ∈ f.itemStores host shift32, s.Apart t := by
  intro s member
  rw [itemStores, List.forall_mem_map]
  intro i _
  have low := header_end (vlanOf f.vlan) member
  have high : ethEnd (vlanOf f.vlan).vlan + 12 ≤
    i.place.offset (vlanOf f.vlan).vlan f.protocols := i.place.offset_ge
  rw [Store.Apart, Item.compiled_offset]
  omega

/-- With items, the protocol is one of the language. -/
theorem consistent (some : f.items ≠ []) : f.protocols.Consistent := by
  rcases f.protocols_cases with ⟨-, empty⟩ | ⟨w, proto⟩
  · exact absurd empty some
  · rw [proto]
    exact protocolsOf_consistent (.some w)

theorem tidy_items (accepted : f.Accepted shift32) : Tidy (f.itemStores host shift32) := by
  intro s s_mem t t_mem
  obtain ⟨i, hi, rfl⟩ := List.mem_map.1 s_mem
  obtain ⟨j, hj, rfl⟩ := List.mem_map.1 t_mem
  by_cases same : i.place = j.place
  · exact .inl (Item.compiled_same same)
  · exact .inr ((Item.compiled_apart (consistent (List.ne_nil_of_mem hi)) (accepted.allowed i hi)
      (accepted.allowed j hj)).2 same)

theorem test_items (accepted : f.Accepted shift32) (frame : ℕ → UInt8) :
    (∀ s ∈ lasts (f.itemStores host shift32), s.Test frame) ↔
      ∀ i ∈ settled f.items, i.Holds f.vlan.isSome f.protocols frame shift32 := by
  by_cases empty : f.items = []
  · simp [itemStores, empty, lasts, settled]
  · rw [itemStores, lasts_compiled (consistent empty) accepted.allowed, List.forall_mem_map,
      vlanOf_isSome]
    refine forall₂_congr fun i member => Item.test_iff frame (accepted.readable i ?_)
    exact (settled_sublist f.items).subset member

theorem stores_inside (f : FirewallFilter) :
    ∀ s ∈ f.header host ++ f.itemStores host shift32, s.offset + s.width ≤ exanicFilterSize := by
  rw [List.forall_mem_append]
  constructor
  · intro s member
    have low := header_end (vlanOf f.vlan) member
    have high : ethEnd (vlanOf f.vlan).vlan + 12 ≤
      Place.type.offset (vlanOf f.vlan).vlan f.protocols := Place.type.offset_ge
    have inside : Place.type.offset (vlanOf f.vlan).vlan f.protocols + _ ≤ exanicFilterSize :=
      Place.type.offset_le
    omega
  · rw [itemStores, List.forall_mem_map]
    intro i _
    rw [Item.compiled_offset, Item.compiled_width]
    exact i.place.offset_le

/-- **The rule of a filter matches the frames the filter is about.** -/
theorem rule_matches (accepted : f.Accepted shift32) (frame : ℕ → UInt8) :
    (f.rule host shift32).Matches exanicFilterSize frame ↔ f.Holds shift32 frame := by
  have rule : f.rule host shift32 = blank.stores (f.header host ++ f.itemStores host shift32) := rfl
  have tidy : Tidy (f.header host ++ f.itemStores host shift32) :=
    (tidy_header host f).append (tidy_items accepted) apart_items
  rw [rule, matches_ofStores (fun a => UInt8.and_zero) tidy f.stores_inside,
    lasts_append apart_items, List.forall_mem_append, test_header, test_items accepted]
  constructor
  · rintro ⟨⟨tag, ip, arp⟩, items⟩
    exact ⟨tag, ip, arp, items⟩
  · rintro ⟨tag, ip, arp, items⟩
    exact ⟨⟨tag, ip, arp⟩, items⟩

end FirewallFilter

/-! ## Where the two meanings agree -/

section Agree

variable {vlan : Bool} {p : Protocols} {frame : ℕ → UInt8} {text : CStr} {n : ℕ}

theorem Names.read (names : Names text n) (small : n < 65536) : strtol text = ((n : Int), []) := by
  rw [strtol_of_value names]
  simp only [cutToLong, longMin, longMax, Prod.mk.injEq, and_true]
  omega

/-- A number that fits is compared as it is. -/
theorem Names.mod_iff (names : Names text n) {size : ℕ} (fits : n < size) (most : size ≤ 65536)
    (found : ℕ) : found = ((strtol text).1 % size).toNat ↔ Names text found := by
  rw [names.read (by omega)]
  have value : ((n : Int) % size).toNat = n := by
    rw [← Int.natCast_mod, Int.toNat_natCast, Nat.mod_eq_of_lt fits]
  rw [value]
  constructor
  · rintro rfl
    exact names
  · intro same
    have : (n : Int) = found := Option.some.inj (names.symm.trans same)
    omega

theorem NamesNetwork.network {addr : UInt32} {bits : ℕ} (names : NamesNetwork text addr bits)
    (most : bits ≤ 32) : network text = some (addr, bits) := by
  obtain ⟨addrStr, bitsStr, split, reads, number⟩ := names
  have value : (Int32.ofInt (bits : Int)).toInt = bits :=
    Int32.toInt_ofInt_of_le (by omega) (by omega)
  simp only [Firewall.network, split, reads, number.read (by omega), value]
  rw [if_pos ⟨trivial, by omega, by omega⟩, Int.toNat_natCast]

/-- Behind a header without options, an item that fits is tested for what it names. -/
theorem Item.holds_iff_means {shift32 : UInt32} {w : ProtoWord} {i : Item} (fits : i.Fits)
    (allowed : i.Allowed w.protocols)
    (header : w.protocols.ip = true → w.protocols.igmp = false → ipHeaderLength vlan frame = 5) :
    i.Holds vlan w.protocols frame shift32 ↔ i.Means vlan w.protocols frame := by
  rcases i with ⟨d, k, text⟩ | text
  · cases k with
    | port =>
        obtain ⟨n, small, names⟩ := fits
        have plain : ipHeaderLength vlan frame = 5 := by
          cases w <;> first | exact header rfl rfl | exact absurd ⟨rfl, rfl⟩ allowed.1
        cases d <;> simp only [Holds, Means, payloadOffset, plain] <;>
          exact names.mod_iff small le_rfl _
    | host => cases d <;> exact Iff.rfl
    | net =>
        obtain ⟨addr, bits, names, least, most, divides⟩ := fits
        have reads := names.network most
        simp only [Holds, Means, reads, Option.some.injEq, Prod.mk.injEq]
        constructor
        · rintro ⟨_, _, ⟨rfl, rfl⟩, inside⟩
          rw [InNetwork, if_neg (by omega)] at inside
          exact ⟨addr, bits, names, inside.1⟩
        · rintro ⟨addr', bits', names', same⟩
          obtain ⟨addrStr, bitsStr, split, address, number⟩ := names
          obtain ⟨_, _, split', address', number'⟩ := names'
          cases split.symm.trans split'
          cases address.symm.trans address'
          have : (bits : Int) = bits' := Option.some.inj (number.symm.trans number')
          obtain rfl : bits = bits' := by omega
          refine ⟨addr, bits, ⟨rfl, rfl⟩, ?_⟩
          rw [InNetwork, if_neg (by omega)]
          exact ⟨same, divides⟩
  · obtain ⟨n, small, names⟩ := fits
    have plain : ipHeaderLength vlan frame = 5 := by
      cases w <;> first | exact header rfl rfl | exact absurd allowed Bool.false_ne_true
    simp only [Holds, Means, payloadOffset, plain]
    exact names.mod_iff small (by omega) _

/-- Where items about one field say the same, the last of them says it all. -/
theorem forall_settled {P : Item → Prop} {items : List Item}
    (alike : items.Pairwise fun i j => i.place = j.place → (P i ↔ P j)) :
    (∀ i ∈ settled items, P i) ↔ ∀ i ∈ items, P i := by
  induction items with
  | nil => rfl
  | cons i items ih =>
      obtain ⟨mine, others⟩ := List.pairwise_cons.1 alike
      have rest := ih others
      rw [settled]
      split
      · rw [List.forall_mem_cons, List.forall_mem_cons, rest]
      · next later =>
        push Not at later
        obtain ⟨j, member, same⟩ := later
        rw [rest, List.forall_mem_cons]
        exact ⟨fun all => ⟨(mine j member same.symm).2 (all j member), all⟩, fun all => all.2⟩

end Agree

namespace FirewallFilter

variable {shift32 : UInt32} {f : FirewallFilter} {frame : ℕ → UInt8}

theorem tagHolds_iff_means (fits : f.Fits) (plain : f.Plain frame) :
    TagHolds frame f.vlan ↔ TagMeans frame f.vlan := by
  have vlanId := fits.vlanId
  have tag := plain.tag
  rcases same : f.vlan with _ | _ | id
  · rfl
  · rfl
  · obtain ⟨n, small, names⟩ := vlanId id same
    have low := tag id same
    have narrow : n < 65536 := by omega
    simp only [TagHolds, TagMeans, Nat.mod_eq_of_lt low]
    exact and_congr_right fun _ => names.mod_iff narrow le_rfl _

theorem ipHolds_iff {vlan : Bool} {p : Protocols} :
    IpHolds vlan p frame ↔
      IpMeans vlan p frame ∧ (p.igmp = false → ipHeaderLength vlan frame = 5) :=
  ⟨fun holds =>
    ⟨⟨holds.etherType, holds.version, holds.tcp, holds.udp, holds.icmp, holds.igmp⟩,
      holds.headerLength⟩,
    fun ⟨means, length⟩ =>
      ⟨means.etherType, means.version, length, means.tcp, means.udp, means.icmp, means.igmp⟩⟩

/-- Two items about one field are ICMP types, and the same number. -/
theorem alike (accepted : f.Accepted shift32) (fits : f.Fits) :
    f.items.Pairwise fun i j => i.place = j.place →
      (i.Holds f.vlan.isSome f.protocols frame shift32 ↔
        j.Holds f.vlan.isSome f.protocols frame shift32) := by
  refine accepted.once.imp_of_mem fun {i j} here there once same => ?_
  rcases once same with type | untested
  · rcases i with ⟨d, k, text⟩ | a
    · cases k <;> cases type
    rcases j with ⟨d, k, text⟩ | b
    · cases k <;> cases same
    obtain ⟨n, small, names⟩ := fits.items _ here
    have names' : Names b n := (fits.types a b here there).symm.trans names
    simp only [Item.Holds, names.read (by omega), names'.read (by omega)]
  · rcases i with ⟨d, k, text⟩ | a
    · cases k with
      | port => exact untested.elim
      | host => exact untested.elim
      | net =>
          obtain ⟨-, addr, empty⟩ := untested
          obtain ⟨_, bits, names, least, most, -⟩ := fits.items _ here
          cases (names.network most).symm.trans empty
          omega
    · exact untested.elim

/-- **Plain frames match the rule of a filter that fits exactly if they are what its words
say.** -/
theorem holds_iff_means (accepted : f.Accepted shift32) (fits : f.Fits) (plain : f.Plain frame) :
    f.Holds shift32 frame ↔ f.Means frame := by
  have items := fun length : f.protocols.ip = true → f.protocols.igmp = false →
      ipHeaderLength f.vlan.isSome frame = 5 => by
    have each : ∀ i ∈ f.items, i.Holds f.vlan.isSome f.protocols frame shift32 ↔
        i.Means f.vlan.isSome f.protocols frame := by
      intro i member
      have mine := accepted.allowed i member
      rcases f.protocols_cases with ⟨-, empty⟩ | ⟨w, proto⟩
      · rw [empty] at member
        exact absurd member List.not_mem_nil
      · rw [proto] at mine length ⊢
        exact Item.holds_iff_means (fits.items i member) mine length
    exact (forall_settled (alike accepted fits)).trans (forall₂_congr each)
  constructor
  · rintro ⟨tag, ip, arp, settled⟩
    exact ⟨(tagHolds_iff_means fits plain).1 tag, fun about => (ipHolds_iff.1 (ip about)).1, arp,
      (items fun about => (ip about).headerLength).1 settled⟩
  · rintro ⟨tag, ip, arp, named⟩
    exact ⟨(tagHolds_iff_means fits plain).2 tag,
      fun about => ipHolds_iff.2 ⟨ip about, plain.header (ip about)⟩, arp,
      (items fun about => plain.header (ip about)).2 named⟩

end FirewallFilter

/-- **An acceptable filter is compiled to a rule that matches the frames it is about**,
whatever the byte order of the host: for every filter in the compiler's sense, and in the
sense of its words if it names what fits and the frame is plain. -/
theorem exanicParseFilterString_means (host : ByteOrder) (shift32 : UInt32) {filter : CStr}
    (short : filter.length < exanicFilterStringMaxLen) {f : FirewallFilter}
    (words : strtok ' ' filter = f.words) (accepted : f.Accepted shift32) :
    ∃ rule, exanicParseFilterString host shift32 filter = .ok (f.drop, rule) ∧
      (∀ frame, rule.Matches exanicFilterSize frame ↔ f.Holds shift32 frame) ∧
      (f.Fits → ∀ frame, f.Plain frame → (rule.Matches exanicFilterSize frame ↔ f.Means frame)) :=
  ⟨f.rule host shift32, parses_iff.2 ⟨short, f, words, accepted, rfl, rfl⟩,
    f.rule_matches accepted, fun fits frame plain =>
      (f.rule_matches accepted frame).trans (f.holds_iff_means accepted fits plain)⟩

/-! ## Poles: DNS answers -/

namespace Poles

def sampleFilter : FirewallFilter where
  drop := true
  vlan := some (some "5".toList)
  proto := some .udp
  items := [.endpoint .src .net "10.0.0.0/8".toList, .endpoint .src .port "53".toList]

theorem sampleFilter_accepted : sampleFilter.Accepted 0 where
  vlanId := by
    rintro _ same
    cases same
    exact ⟨by decide, by decide +kernel⟩
  allowed := by decide +kernel
  readable := by decide +kernel
  once := by
    refine .cons ?_ (List.pairwise_singleton _ _)
    rintro _ member same
    rw [List.mem_singleton.1 member] at same
    cases same

theorem sampleFilter_fits : sampleFilter.Fits where
  vlanId := by
    rintro _ same
    cases same
    exact ⟨5, by decide, by decide +kernel⟩
  items := by
    refine List.forall_mem_cons.2 ⟨?_, List.forall_mem_singleton.2 ?_⟩
    · exact ⟨0x0A000000, 8, ⟨"10.0.0.0".toList, "8".toList, by decide +kernel⟩, by decide⟩
    · exact ⟨53, by decide, by decide +kernel⟩
  types := by
    intro a b here
    exact absurd here (by simp [sampleFilter])

/-- A frame of VLAN 5 with a UDP packet from port 53 of 10.1.2.3. -/
def sampleFrame (i : ℕ) : UInt8 :=
  [0, 0, 0, 0, 0, 0, 0, 0, 0, 0, 0, 0, 0x81, 0, 0, 5, 8, 0, 0x45, 0, 0, 0, 0, 0, 0, 0, 0, 17, 0, 0,
    10, 1, 2, 3, 0, 0, 0, 0, 0, 53].getD i 0

end Poles

/-- The rule of the sample matches plain frames by the meaning of its words, and it matches
such a frame. -/
theorem exanicParseFilterString_means_sample : ∃ rule : Ternary UInt8,
    exanicParseFilterString .little 0 "drop vlan 5 udp src net 10.0.0.0/8 src port 53".toList =
        .ok (true, rule) ∧
      (∀ frame, Poles.sampleFilter.Plain frame →
        (rule.Matches exanicFilterSize frame ↔ Poles.sampleFilter.Means frame)) ∧
      rule.Matches exanicFilterSize Poles.sampleFrame := by
  have short : "drop vlan 5 udp src net 10.0.0.0/8 src port 53".toList.length <
      exanicFilterStringMaxLen := by decide
  obtain ⟨rule, parses, -, means⟩ := exanicParseFilterString_means .little 0 short
    (by decide +kernel) Poles.sampleFilter_accepted
  have plain : Poles.sampleFilter.Plain Poles.sampleFrame :=
    ⟨fun _ _ => by decide +kernel, fun _ _ => by decide +kernel⟩
  refine ⟨rule, parses, means Poles.sampleFilter_fits,
    (means Poles.sampleFilter_fits _ plain).2 ⟨?_, fun _ => ?_, ?_, ?_⟩⟩
  · exact ⟨by decide +kernel, by decide +kernel⟩
  · constructor <;> decide +kernel
  · exact fun arp => absurd arp (by decide)
  · refine List.forall_mem_cons.2 ⟨?_, List.forall_mem_singleton.2 ?_⟩
    · exact ⟨0x0A000000, 8, ⟨"10.0.0.0".toList, "8".toList, by decide +kernel⟩, by decide +kernel⟩
    · show Names _ _
      decide +kernel

end ExanicCapture.Firewall
