/-
# Filter.Meaning -- filter expressions mean what they say

`Clause.Holds` is what a clause says about a packet, and `ExanicIpFilter.Matches` is
what an installed filter lets through.  The items of a clause write into fields that
are still zero (`Free`), so that each adds one condition to the filter
(`matches_take`); mirroring the filter mirrors the packets (`matches_mirrored`).

`applyFilters_means` puts this together: an expression and the filters installed for
it agree on every packet, and the order of the items in a clause does not matter.
-/
import ExanicCapture.Filter.Clauses
import Mathlib.Data.List.Nodup

namespace ExanicCapture.Filter

set_option autoImplicit false

open Theory Capture Save

/-! ## Packets, and what is said about them -/

/-- The fields of the headers, as numbers. -/
structure Packet where
  protocol : UInt8
  src : UInt32
  dst : UInt32
  sport : UInt16
  dport : UInt16

def Packet.mirrored (p : Packet) : Packet :=
  { p with src := p.dst, dst := p.src, sport := p.dport, dport := p.sport }

/-- Every field that is not zero equals the packet's; both are in network byte order. -/
@[mk_iff]
structure ExanicIpFilter.Matches (host : ByteOrder) (f : ExanicIpFilter) (p : Packet) :
    Prop where
  srcAddr : f.srcAddr = 0 ∨ f.srcAddr = htonl host p.src
  dstAddr : f.dstAddr = 0 ∨ f.dstAddr = htonl host p.dst
  srcPort : f.srcPort = 0 ∨ f.srcPort = htons host p.sport
  dstPort : f.dstPort = 0 ∨ f.dstPort = htons host p.dport
  protocol : f.protocol = 0 ∨ f.protocol = p.protocol

namespace Item

/-- What an item says by itself; `host` and `port` are up to the clause. -/
def Holds (p : Packet) : Item → Prop
  | .addr .dst operand => inetAton operand = some p.dst
  | .addr .src operand => inetAton operand = some p.src
  | .port .dport operand => (strtoul operand).1 = p.dport.toNat
  | .port .sport operand => (strtoul operand).1 = p.sport.toNat
  | .proto k => p.protocol = k.number
  | .addr .host _ => True
  | .port .port _ => True

/-- What `host` and `port` say about one side of a packet. -/
def Names (addr : UInt32) (port : UInt16) : Item → Prop
  | .addr .host operand => inetAton operand = some addr
  | .port .port operand => (strtoul operand).1 = port.toNat
  | _ => True

/-- The operand is an address other than 0.0.0.0, or a number from 1 to 65535. -/
def Definite : Item → Prop
  | .addr _ operand => ∃ addr, inetAton operand = some addr ∧ addr ≠ 0
  | .port _ operand => ∃ n, strtoul operand = (n, []) ∧ 1 ≤ n ∧ n ≤ 65535
  | .proto _ => True

end Item

/-- What a clause says: its `host` and `port` are jointly about the destination, or
jointly about the source. -/
def Clause.Holds (c : Clause) (p : Packet) : Prop :=
  (∀ i ∈ c, i.Holds p) ∧
    ((∀ i ∈ c, i.Names p.dst p.dport) ∨ ∀ i ∈ c, i.Names p.src p.sport)

/-- A well-formed clause. -/
structure Clause.WellFormed (c : Clause) : Prop where
  shape : c.Shape
  definite : ∀ i ∈ c, i.Definite

/-! ## Network byte order -/

section

variable (host : ByteOrder)

theorem toNat_htonl (n : UInt32) :
    (htonl host n).toNat = ByteOrder.recode host .big 4 n.toNat := by
  have small : ByteOrder.recode host .big 4 n.toNat < 2 ^ 32 := ByteOrder.recode_lt _ _ _ _
  rw [htonl, UInt32.toNat_ofNat', Nat.mod_eq_of_lt small]

theorem htonl_inj {m n : UInt32} : htonl host m = htonl host n ↔ m = n := by
  refine ⟨fun same => ?_, congrArg _⟩
  have stored := congrArg UInt32.toNat same
  rw [toNat_htonl, toNat_htonl] at stored
  exact UInt32.toNat_inj.1 (ByteOrder.recode_inj m.toNat_lt n.toNat_lt stored)

theorem htonl_eq_zero {n : UInt32} : htonl host n = 0 ↔ n = 0 := by
  have zero : htonl host 0 = 0 := by
    rw [htonl, UInt32.toNat_zero, ByteOrder.recode_zero]
    rfl
  constructor
  · intro none
    exact (htonl_inj host).1 (none.trans zero.symm)
  · rintro rfl
    exact zero

theorem htons_inj {m n : UInt16} : htons host m = htons host n ↔ m = n := by
  refine ⟨fun same => ?_, congrArg _⟩
  have stored := congrArg UInt16.toNat same
  rw [toNat_htons, toNat_htons] at stored
  exact UInt16.toNat_inj.1 (ByteOrder.recode_inj m.toNat_lt n.toNat_lt stored)

theorem htons_eq_zero {n : UInt16} : htons host n = 0 ↔ n = 0 := by
  have zero : htons host 0 = 0 := by
    rw [htons, UInt16.toNat_zero, ByteOrder.recode_zero]
    rfl
  constructor
  · intro none
    exact (htons_inj host).1 (none.trans zero.symm)
  · rintro rfl
    exact zero

end

/-! ## One item, one condition -/

/-- The field an item of this kind writes is still zero. -/
def ExanicIpFilter.Free (f : ExanicIpFilter) : Kind → Prop
  | .addr .host | .addr .dst => f.dstAddr = 0
  | .addr .src => f.srcAddr = 0
  | .port .port | .port .dport => f.dstPort = 0
  | .port .sport => f.srcPort = 0
  | .proto _ => f.protocol = 0

/-- What an item says about packets to the destination. -/
def Item.Aims (p : Packet) (i : Item) : Prop := i.Holds p ∧ i.Names p.dst p.dport

section

variable (host : ByteOrder) {f : ExanicIpFilter} {p : Packet}

/-- An item leaves the fields free that others write. -/
theorem free_take {i : Item} {k : Kind} (free : f.Free k) (apart : i.kind.conflicts k = false) :
    (f.take host i).Free k := by
  rcases i with ⟨_ | _ | _, w⟩ | ⟨_ | _ | _, w⟩ | k' <;>
    rcases k with (_ | _ | _) | (_ | _ | _) | _ <;>
    first
    | exact free
    | (simp [Item.kind, Kind.conflicts, Kind.undirected, Kind.directed, Kind.isProto] at apart)

/-- Items that do not conflict write different fields. -/
theorem take_comm {i j : Item} (apart : i.kind.conflicts j.kind = false) :
    (f.take host i).take host j = (f.take host j).take host i := by
  rcases i with ⟨_ | _ | _, w⟩ | ⟨_ | _ | _, w⟩ | k <;>
    rcases j with ⟨_ | _ | _, w'⟩ | ⟨_ | _ | _, w'⟩ | k' <;>
    first
    | rfl
    | (simp [Item.kind, Kind.conflicts, Kind.undirected, Kind.directed, Kind.isProto] at apart)

/-- The condition an address puts on a field. -/
theorem addr_condition {addr : UInt32} (definite : addr ≠ 0) (other : UInt32) :
    (htonl host addr = 0 ∨ htonl host addr = htonl host other) ↔ addr = other := by
  rw [htonl_eq_zero, htonl_inj, or_iff_right definite]

/-- The condition a port number puts on a field. -/
theorem port_condition {n : ℕ} (least : 1 ≤ n) (most : n ≤ 65535) (other : UInt16) :
    (htons host (.ofNat n) = 0 ∨ htons host (.ofNat n) = htons host other) ↔
      n = other.toNat := by
  have whole : (UInt16.ofNat n).toNat = n := UInt16.toNat_ofNat_of_lt (Nat.lt_succ_of_le most)
  have definite : UInt16.ofNat n ≠ 0 := by
    intro zero
    rw [zero, UInt16.toNat_zero] at whole
    omega
  rw [htons_eq_zero, htons_inj, or_iff_right definite, ← UInt16.toNat_inj, whole]

/-- A field that was zero gets one condition. -/
theorem matches_take {i : Item} (definite : i.Definite) (free : f.Free i.kind) :
    (f.take host i).Matches host p ↔ f.Matches host p ∧ i.Aims p := by
  cases i with
  | addr k operand =>
      obtain ⟨addr, found, ne⟩ := definite
      have condition := addr_condition host ne
      rcases k with _ | _ | _ <;>
        simp only [Item.kind, ExanicIpFilter.Free] at free <;>
        simp only [ExanicIpFilter.matches_iff, ExanicIpFilter.take, ExanicIpFilter.setAddr, found,
          Option.getD_some, Option.some_inj, condition, free, Item.Aims, Item.Holds, Item.Names,
          true_or, true_and, and_comm, and_left_comm]
  | port k operand =>
      obtain ⟨n, read, least, most⟩ := definite
      have condition := port_condition host least most
      rcases k with _ | _ | _ <;>
        simp only [Item.kind, ExanicIpFilter.Free] at free <;>
        simp only [ExanicIpFilter.matches_iff, ExanicIpFilter.take, ExanicIpFilter.setPort, read,
          condition, free, Item.Aims, Item.Holds, Item.Names, true_or, true_and, and_comm,
          and_left_comm, and_assoc]
  | proto k =>
      have named : k.number ≠ 0 := by cases k <;> decide
      have condition : (k.number = 0 ∨ k.number = p.protocol) ↔ p.protocol = k.number := by
        rw [or_iff_right named, eq_comm]
      simp only [Item.kind, ExanicIpFilter.Free] at free
      simp only [ExanicIpFilter.matches_iff, ExanicIpFilter.take, condition, free, Item.Aims,
        Item.Holds, Item.Names, true_or, and_true, and_assoc]

end

/-! ## One clause -/

section

variable (host : ByteOrder) {c : Clause} {f : ExanicIpFilter} {p : Packet}

/-- The filter of a clause matches what all its items say. -/
theorem matches_foldl (apart : c.Apart) (definite : ∀ i ∈ c, i.Definite)
    (free : ∀ i ∈ c, f.Free i.kind) :
    (c.foldl (ExanicIpFilter.take host) f).Matches host p ↔
      f.Matches host p ∧ ∀ i ∈ c, i.Aims p := by
  induction c generalizing f with
  | nil => simp
  | cons i c ih =>
      obtain ⟨first, others⟩ := List.pairwise_cons.1 apart
      have rest : ∀ j ∈ c, (f.take host i).Free j.kind := fun j member =>
        free_take host (free j (List.mem_cons_of_mem _ member))
          (first j.kind (List.mem_map_of_mem member))
      rw [List.foldl_cons, ih others (fun j member => definite j (List.mem_cons_of_mem _ member))
        rest, matches_take host (definite i (List.mem_cons_self ..)) (free i (List.mem_cons_self ..)),
        List.forall_mem_cons, and_assoc]

theorem matches_filter (wellFormed : c.WellFormed) :
    (c.filter host).Matches host p ↔ ∀ i ∈ c, i.Aims p := by
  have free : ∀ i ∈ c, ExanicIpFilter.zero.Free i.kind := by
    intro i _
    rcases i with ⟨_ | _ | _, w⟩ | ⟨_ | _ | _, w⟩ | k <;> rfl
  have all : ExanicIpFilter.zero.Matches host p := ⟨.inl rfl, .inl rfl, .inl rfl, .inl rfl, .inl rfl⟩
  rw [Clause.filter, matches_foldl host (Clause.shape_iff.1 wellFormed.shape).2
    wellFormed.definite free]
  exact and_iff_right all

/-- Without `src` and `sport` the source fields stay as they are. -/
theorem foldl_source (undirected : ∀ k ∈ c.kinds, k.directed = false) :
    (c.foldl (ExanicIpFilter.take host) f).srcAddr = f.srcAddr ∧
      (c.foldl (ExanicIpFilter.take host) f).srcPort = f.srcPort := by
  induction c generalizing f with
  | nil => exact ⟨rfl, rfl⟩
  | cons i c ih =>
      obtain ⟨first, others⟩ := List.forall_mem_cons.1 undirected
      obtain ⟨addr, port⟩ := ih (f := f.take host i) others
      rw [List.foldl_cons, addr, port]
      rcases i with ⟨_ | _ | _, w⟩ | ⟨_ | _ | _, w⟩ | k <;>
        first
        | exact ⟨rfl, rfl⟩
        | simp [Item.kind, Kind.directed] at first

/-- Mirroring a filter without source mirrors the packets it matches. -/
theorem matches_mirrored (noAddr : f.srcAddr = 0) (noPort : f.srcPort = 0) :
    f.mirrored.Matches host p ↔ f.Matches host p.mirrored := by
  simp [ExanicIpFilter.matches_iff, ExanicIpFilter.mirrored, Packet.mirrored, noAddr, noPort]

/-- An item about no direction says the same of a mirrored packet. -/
theorem Item.holds_mirrored {i : Item} (undirected : i.kind.directed = false) :
    i.Holds p.mirrored ↔ i.Holds p := by
  rcases i with ⟨_ | _ | _, w⟩ | ⟨_ | _ | _, w⟩ | k <;>
    first
    | exact Iff.rfl
    | simp [Item.kind, Kind.directed] at undirected

theorem Item.names_of_not_undirected {i : Item} (other : i.kind.undirected = false)
    (addr : UInt32) (port : UInt16) : i.Names addr port := by
  rcases i with ⟨_ | _ | _, w⟩ | ⟨_ | _ | _, w⟩ | k <;> trivial

/-- **The filters of a clause match what the clause says.** -/
theorem matches_filters (wellFormed : c.WellFormed) :
    (∃ f ∈ c.filters host, f.Matches host p) ↔ c.Holds p := by
  have direct : (c.filter host).Matches host p ↔
      (∀ i ∈ c, i.Holds p) ∧ ∀ i ∈ c, i.Names p.dst p.dport := by
    rw [matches_filter host wellFormed, ← forall₂_and]
    rfl
  cases bidir : c.bidir with
  | false =>
      have trivially (addr : UInt32) (port : UInt16) : ∀ i ∈ c, i.Names addr port := by
        intro i member
        have other := List.any_eq_false.1 bidir i member
        exact Item.names_of_not_undirected (by simpa using other) addr port
      have one : c.filters host = [c.filter host] := by simp [Clause.filters, bidir]
      have lone : (∃ f ∈ c.filters host, f.Matches host p) ↔ (c.filter host).Matches host p := by
        simp [one]
      rw [lone, direct, Clause.Holds]
      exact and_congr_right fun _ =>
        iff_of_true (trivially p.dst p.dport) (.inl (trivially p.dst p.dport))
  | true =>
      obtain ⟨i, member, undirected⟩ := List.any_eq_true.1 bidir
      have only : ∀ k ∈ c.kinds, k.directed = false := by
        rcases wellFormed.shape.unmixed with none | none
        · rw [none i.kind (List.mem_map_of_mem member)] at undirected
          cases undirected
        · exact none
      obtain ⟨noAddr, noPort⟩ : (c.filter host).srcAddr = 0 ∧ (c.filter host).srcPort = 0 :=
        foldl_source host only
      have back : (c.filter host).mirrored.Matches host p ↔
          (∀ i ∈ c, i.Holds p) ∧ ∀ i ∈ c, i.Names p.src p.sport := by
        have same : ∀ i ∈ c, i.Aims p.mirrored ↔ i.Holds p ∧ i.Names p.src p.sport := fun i member =>
          and_congr_left' (Item.holds_mirrored (only i.kind (List.mem_map_of_mem member)))
        rw [matches_mirrored host noAddr noPort, matches_filter host wellFormed, ← forall₂_and]
        exact forall₂_congr same
      have two : c.filters host = [c.filter host, (c.filter host).mirrored] := by
        simp [Clause.filters, bidir]
      have either : (∃ f ∈ c.filters host, f.Matches host p) ↔
          (c.filter host).Matches host p ∨ (c.filter host).mirrored.Matches host p := by
        simp [two]
      rw [either, direct, back, Clause.Holds, and_or_left]

/-! ## The order of the items -/

theorem Clause.Shape.perm {c' : Clause} (shape : c.Shape) (reordered : c.Perm c') : c'.Shape where
  nonempty := fun none => shape.nonempty (by simpa [none] using reordered)
  once := (reordered.map Item.kind).nodup_iff.1 shape.once
  oneProto := by
    have same (k : Kind) := (reordered.map Item.kind).mem_iff (a := k)
    intro both
    exact shape.oneProto ⟨(same _).2 both.1, (same _).2 both.2⟩
  unmixed := by
    have same (k : Kind) := (reordered.map Item.kind).mem_iff (a := k)
    exact shape.unmixed.imp (fun all k member => all k ((same k).2 member))
      fun all k member => all k ((same k).2 member)

/-- The filters of a clause do not depend on the order of its items. -/
theorem filters_perm {c' : Clause} (shape : c.Shape) (reordered : c.Perm c') :
    c.filter host = c'.filter host ∧ c.bidir = c'.bidir := by
  have commutes : ∀ i ∈ c, ∀ j ∈ c, ∀ f : ExanicIpFilter,
      (f.take host i).take host j = (f.take host j).take host i := by
    intro i first j second f
    by_cases same : i = j
    · rw [same]
    · have ne : i.kind ≠ j.kind := fun eq =>
        same (List.inj_on_of_nodup_map shape.once first second eq)
      exact take_comm host ((Clause.shape_iff.1 shape).2.not_conflicts
        (List.mem_map_of_mem first) (List.mem_map_of_mem second) ne)
  exact ⟨reordered.foldl_eq' commutes _, reordered.any_eq⟩

theorem Item.Definite.accepted {i : Item} (definite : i.Definite) : i.accepted = true := by
  cases i with
  | addr k operand =>
      obtain ⟨addr, found, -⟩ := definite
      simp [Item.accepted, found]
  | port k operand =>
      obtain ⟨n, read, -⟩ := definite
      simp [Item.accepted, read]
  | proto k => rfl

/-- Reordering the items inside the clauses changes nothing. -/
theorem applyFilters_perm {add : List ExanicIpFilter → ExanicIpFilter → Int}
    {clauses clauses' : List Clause} (wellFormed : ∀ c ∈ clauses, c.WellFormed)
    (reordered : List.Forall₂ List.Perm clauses clauses') (installed : List ExanicIpFilter) :
    applyFilters host add installed (argvOf clauses') =
      applyFilters host add installed (argvOf clauses) := by
  induction reordered generalizing installed with
  | nil => rfl
  | @cons c c' rest rest' perm others ih =>
      obtain ⟨first, wellFormed⟩ := List.forall_mem_cons.1 wellFormed
      have accepted : ∀ i ∈ c, i.accepted = true := fun i member =>
        (first.definite i member).accepted
      have accepted' : ∀ i ∈ c', i.accepted = true := fun i member =>
        accepted i (perm.mem_iff.2 member)
      have shape' := first.shape.perm perm
      obtain ⟨last, before⟩ := parseOneFilter_clause host first.shape accepted
      obtain ⟨last', before'⟩ := parseOneFilter_clause host shape' accepted'
      obtain ⟨sameFilter, sameBidir⟩ := filters_perm host first.shape perm
      rw [← sameFilter, ← sameBidir] at last' before'
      have words := Clause.words_ne_nil first.shape.nonempty
      have words' := Clause.words_ne_nil shape'.nonempty
      cases others with
      | nil =>
          have only (c : Clause) : argvOf [c] = c.words := by simp [argvOf]
          rw [only, only, applyFilters_clause host words last, applyFilters_clause host words' last']
      | cons _ _ =>
          rw [argvOf_cons, argvOf_cons, applyFilters_clause host (by simp) (before _),
            applyFilters_clause host (by simp) (before' _), ih wellFormed]

end

/-! ## The whole expression -/

/-- **Filter expressions mean what they say.** -/
theorem applyFilters_means (host : ByteOrder) (add : List ExanicIpFilter → ExanicIpFilter → Int)
    (clauses : List Clause) (wellFormed : ∀ c ∈ clauses, c.WellFormed) :
    let applied := applyFilters host add [] (argvOf clauses)
    (Succeeds add → applied.returned = true ∧
      ∀ p, (∃ f ∈ applied.installed, f.Matches host p) ↔ ∃ c ∈ clauses, c.Holds p) ∧
    ∀ clauses', List.Forall₂ List.Perm clauses clauses' →
      applyFilters host add [] (argvOf clauses') = applied := by
  refine ⟨fun succeeds => ?_, fun clauses' reordered => ?_⟩
  · rw [applyFilters_argvOf host succeeds (fun c member => (wellFormed c member).shape)
      (fun c member i among => ((wellFormed c member).definite i among).accepted), List.nil_append]
    refine ⟨rfl, ?_⟩
    intro p
    constructor
    · rintro ⟨f, member, lets⟩
      obtain ⟨c, among, installed⟩ := List.mem_flatMap.1 member
      exact ⟨c, among, (matches_filters host (wellFormed c among)).1 ⟨f, installed, lets⟩⟩
    · rintro ⟨c, among, holds⟩
      obtain ⟨f, installed, lets⟩ := (matches_filters host (wellFormed c among)).2 holds
      exact ⟨f, List.mem_flatMap.2 ⟨c, among, installed⟩, lets⟩
  · exact applyFilters_perm host wellFormed reordered []

namespace Poles

/-- To or from tcp port 80 of 1.2.3.4, or to 1.2.3.5. -/
def clauses : List Clause :=
  [[.addr .host ['1', '.', '2', '.', '3', '.', '4'], .proto .tcp, .port .port ['8', '0']],
    [.addr .dst ['1', '.', '2', '.', '3', '.', '5']]]

theorem clauses_wellFormed : ∀ c ∈ clauses, c.WellFormed := by
  intro c member
  simp only [clauses, List.mem_cons, List.not_mem_nil, or_false] at member
  rcases member with rfl | rfl
  · refine ⟨Clause.shape_iff.2 ⟨by decide, by unfold Clause.Apart; decide⟩, ?_⟩
    intro i among
    simp only [List.mem_cons, List.not_mem_nil, or_false] at among
    rcases among with rfl | rfl | rfl
    · exact ⟨0x01020304, by decide, by decide⟩
    · trivial
    · exact ⟨80, by decide, by decide, by decide⟩
  · refine ⟨Clause.shape_iff.2 ⟨by decide, by unfold Clause.Apart; decide⟩, ?_⟩
    intro i among
    rw [List.mem_singleton] at among
    subst among
    exact ⟨0x01020305, by decide, by decide⟩

end Poles

/-- Both clauses on a little-endian machine. -/
theorem applyFilters_means_two :
    let applied := applyFilters .little (fun _ _ => 0) [] (argvOf Poles.clauses)
    applied.returned = true ∧
      ∀ p, (∃ f ∈ applied.installed, f.Matches .little p) ↔ ∃ c ∈ Poles.clauses, c.Holds p :=
  (applyFilters_means .little (fun _ _ => 0) Poles.clauses Poles.clauses_wellFormed).1
    fun _ _ => (by decide : (0 : Int) ≠ -1)

end ExanicCapture.Filter
