/-
# Firewall.Parser -- `exanic_parse_filter_string`

A firewall rule is written in a syntax like that of BPF and compiled into a pattern and
a mask over the first `EXANIC_FILTER_SIZE` bytes of a frame.  The compiler reads the
tokens from left to right: the action, `vlan` and its id, the protocol, and then the
items, each of which is checked against the mask and stored at once.

Shifting a 32-bit value by 32 places, as `net .../0` does, is undefined in C; its value
is the parameter `shift32`.
-/
import ExanicCapture.Capture.Strtol
import ExanicCapture.Filter.Parse
import ExanicCapture.Theory.Ternary

namespace ExanicCapture.Firewall

set_option autoImplicit false

open Theory Capture ExanicCapture.Filter Save

/-- `EXANIC_FILTER_STRING_MAX_LEN`. -/
def exanicFilterStringMaxLen : ℕ := 256
/-- `EXANIC_FILTER_SIZE`. -/
def exanicFilterSize : ℕ := 44

/-! ## Errors -/

inductive FilterError where
  | tooLong
  | noAction
  | action (tok : CStr)
  | vlanId (tok : CStr)
  | item (tok : CStr)
  | operandKind (tok : CStr)
  | missing
  | portProtocol
  | arpTarget
  | port (tok : CStr)
  | address (tok : CStr)
  | network (tok : CStr)
  | prefixLength (tok : CStr)
  | dstPortConflict
  | srcPortConflict
  | dstAddrConflict
  | srcAddrConflict
  | typeProtocol
  | type (tok : CStr)
deriving DecidableEq

/-- What the error is about. -/
def FilterError.text : FilterError → CStr
  | tooLong => "filter too long".toList
  | noAction => "parse error: expected 'allow' or 'drop'".toList
  | action tok => "parse error: expected 'allow' or 'drop', got '".toList ++ tok ++ "'".toList
  | vlanId tok => "parse error: invalid VLAN ID '".toList ++ tok ++ "'".toList
  | item tok => "parse error: expected 'dst', 'src' or 'type', got '".toList ++ tok ++ "'".toList
  | operandKind tok =>
      "parse error: expected 'port', 'host' or 'net', got '".toList ++ tok ++ "'".toList
  | missing => "parse error".toList
  | portProtocol => "port requires tcp or udp".toList
  | arpTarget => "filtering on arp target not supported".toList
  | port tok => "parse error: invalid port '".toList ++ tok ++ "'".toList
  | address tok => "parse error: invalid address '".toList ++ tok ++ "'".toList
  | network tok => "parse error: invalid network '".toList ++ tok ++ "'".toList
  | prefixLength tok => "parse error: invalid prefix length '".toList ++ tok ++ "'".toList
  | dstPortConflict => "destination port conflict".toList
  | srcPortConflict => "source port conflict".toList
  | dstAddrConflict => "destination address conflict".toList
  | srcAddrConflict => "source address conflict".toList
  | typeProtocol => "type requires icmp".toList
  | type tok => "parse error: invalid type '".toList ++ tok ++ "'".toList

/-- `exanic_err_printf`: the buffer has 256 bytes. -/
def FilterError.message (e : FilterError) : CStr := fit 256 e.text

/-! ## Tokens -/

/-- The tokens `strtok_r` finds with one delimiter. -/
def strtok (delim : Char) (s : CStr) : List CStr := (s.splitOn delim).filter (· ≠ [])

def parseAction : List CStr → Except FilterError (Bool × List CStr)
  | [] => .error .noAction
  | tok :: toks =>
      if tok = "allow".toList then .ok (false, toks)
      else if tok = "drop".toList then .ok (true, toks)
      else .error (.action tok)

structure Vlan where
  vlan : Bool
  vlanTci : UInt16
  vlanTciMask : UInt16
deriving DecidableEq

def startsWithDigit (tok : CStr) : Bool := tok.head?.any fun c => '0' ≤ c && c ≤ '9'

/-- `vlan` is optional, and so is the id behind it. -/
def parseVlan : List CStr → Except FilterError (Vlan × List CStr)
  | [] => .ok (⟨false, 0, 0⟩, [])
  | tok :: toks =>
      if tok = "vlan".toList then
        match toks with
        | [] => .ok (⟨true, 0, 0⟩, [])
        | id :: toks =>
            if startsWithDigit id then
              let (value, endptr) := strtol id
              if endptr ≠ [] then .error (.vlanId id) else .ok (⟨true, .ofInt value, 0xFFFF⟩, toks)
            else .ok (⟨true, 0, 0⟩, id :: toks)
      else .ok (⟨false, 0, 0⟩, tok :: toks)

structure Protocols where
  ip : Bool
  tcp : Bool
  udp : Bool
  arp : Bool
  icmp : Bool
  igmp : Bool
deriving DecidableEq

/-- The protocol is optional; whatever else follows is about IP. -/
def parseProtocol : List CStr → Protocols × List CStr
  | [] => (⟨false, false, false, false, false, false⟩, [])
  | tok :: toks =>
      if tok = "tcp".toList then (⟨true, true, false, false, false, false⟩, toks)
      else if tok = "udp".toList then (⟨true, false, true, false, false, false⟩, toks)
      else if tok = "icmp".toList then (⟨true, false, false, false, true, false⟩, toks)
      else if tok = "igmp".toList then (⟨true, false, false, false, false, true⟩, toks)
      else if tok = "arp".toList then (⟨false, false, false, true, false, false⟩, toks)
      else if tok = "ip".toList then (⟨true, false, false, false, false, false⟩, toks)
      else (⟨true, false, false, false, false, false⟩, tok :: toks)

/-! ## Headers -/

section Fields

variable (host : ByteOrder)

def field8 (offset : ℕ) (pattern mask : UInt8) : Ternary.Store UInt8 :=
  ⟨offset, [pattern], [mask], rfl⟩

def field16 (offset : ℕ) (pattern mask : UInt16) : Ternary.Store UInt8 :=
  ⟨offset, host.bytes 2 pattern.toNat, host.bytes 2 mask.toNat, by simp⟩

def field32 (offset : ℕ) (pattern mask : UInt32) : Ternary.Store UInt8 :=
  ⟨offset, host.bytes 4 pattern.toNat, host.bytes 4 mask.toNat, by simp⟩

/-- `eth_end`. -/
def ethEnd (vlan : Bool) : ℕ := if vlan then 18 else 14

/-- `ip_end`, which is used with IP only. -/
def ipEnd (vlan : Bool) : ℕ := ethEnd vlan + 20

/-- The stores for the tag. -/
def tagHeaders (v : Vlan) : List (Ternary.Store UInt8) :=
  if v.vlan then
    [field16 host 12 (htons host 0x8100) 0xFFFF,
      field16 host 14 (htons host v.vlanTci) (htons host v.vlanTciMask)]
  else []

/-- The stores for what is behind the tag. -/
def networkHeaders (vlan : Bool) (p : Protocols) : List (Ternary.Store UInt8) :=
  (if p.ip then
    [field16 host (ethEnd vlan - 2) (htons host 0x0800) 0xFFFF,
      -- `version` and `ihl` share a byte
      field8 (ethEnd vlan) 0x45 0xFF]
  else if p.arp then
    [field16 host (ethEnd vlan - 2) (htons host 0x0806) 0xFFFF,
      field16 host (ethEnd vlan) (htons host 1) 0xFFFF,
      field16 host (ethEnd vlan + 2) (htons host 0x0800) 0xFFFF,
      field8 (ethEnd vlan + 4) 6 0xFF,
      field8 (ethEnd vlan + 5) 4 0xFF]
  else []) ++
  (if p.tcp then [field8 (ethEnd vlan + 9) 6 0xFF]
  else if p.udp then [field8 (ethEnd vlan + 9) 17 0xFF]
  else if p.icmp then [field8 (ethEnd vlan + 9) 1 0xFF]
  else if p.igmp then
    -- `ihl` is taken back
    [field8 (ethEnd vlan + 9) 2 0xFF, field8 (ethEnd vlan) 0x40 0xF0]
  else [])

/-- The stores before the loop. -/
def headers (v : Vlan) (p : Protocols) : List (Ternary.Store UInt8) :=
  tagHeaders host v ++ networkHeaders host v.vlan p

end Fields

/-! ## Items -/

inductive Direction where
  | dst
  | src
deriving DecidableEq

inductive OperandKind where
  | port
  | host
  | net
deriving DecidableEq

/-- What an item is compiled to. -/
inductive Operand where
  | port (portNum : UInt16)
  | addr (ipAddr ipNetmask : UInt32)

/-- The two parts of a network, and what an error about it prints. -/
def splitNetwork (tok : CStr) : Except FilterError (CStr × CStr) :=
  let addr := (tok.dropWhile (· = '/')).takeWhile (· ≠ '/')
  let bits := ((tok.dropWhile (· = '/')).dropWhile (· ≠ '/')).drop 1
  if addr = [] ∨ bits = [] then .error (.network (tok.takeWhile (· = '/') ++ addr))
  else .ok (addr, bits)

section Items

variable (host : ByteOrder) (shift32 : UInt32)

/-- `htonl(0xFFFFFFFF << (32 - bits))`. -/
def ipNetmask (bits : Int) : UInt32 :=
  htonl host (if bits = 0 then shift32 else 0xFFFFFFFF <<< UInt32.ofNat (32 - bits).toNat)

def parseOperand (tok : CStr) : OperandKind → Except FilterError Operand
  | .port =>
      let (value, endptr) := strtol tok
      if endptr ≠ [] then .error (.port tok) else .ok (.port (.ofInt value))
  | .host =>
      match inetAton tok with
      | none => .error (.address tok)
      | some addr => .ok (.addr (htonl host addr) 0xFFFFFFFF)
  | .net =>
      match splitNetwork tok with
      | .error e => .error e
      | .ok (addrStr, bitsStr) =>
          match inetAton addrStr with
          | none => .error (.address addrStr)
          | some addr =>
              let (value, p) := strtol bitsStr
              let bits := (Int32.ofInt value).toInt
              if p ≠ [] ∨ bits < 0 ∨ bits > 32 then .error (.prefixLength bitsStr)
              else .ok (.addr (htonl host addr) (ipNetmask host shift32 bits))

variable (vlan : Bool) (p : Protocols)

/-- The mask of a field is still zero. -/
def unset (rule : Ternary UInt8) (offset width : ℕ) : Bool :=
  host.value (Memory.slice rule.mask offset width) = 0

/-- Update pattern and mask. -/
def update (rule : Ternary UInt8) (d : Direction) : Operand → Except FilterError (Ternary UInt8)
  | .port portNum =>
      if p.tcp || p.udp then
        match d with
        | .dst =>
            if unset host rule (ipEnd vlan + 2) 2 then
              .ok (rule.store (field16 host (ipEnd vlan + 2) (htons host portNum) 0xFFFF))
            else .error .dstPortConflict
        | .src =>
            if unset host rule (ipEnd vlan) 2 then
              .ok (rule.store (field16 host (ipEnd vlan) (htons host portNum) 0xFFFF))
            else .error .srcPortConflict
      else .ok rule
  | .addr ipAddr ipNetmask =>
      if p.ip then
        match d with
        | .dst =>
            if unset host rule (ethEnd vlan + 16) 4 then
              .ok (rule.store (field32 host (ethEnd vlan + 16) ipAddr ipNetmask))
            else .error .dstAddrConflict
        | .src =>
            if unset host rule (ethEnd vlan + 12) 4 then
              .ok (rule.store (field32 host (ethEnd vlan + 12) ipAddr ipNetmask))
            else .error .srcAddrConflict
      else if p.arp then
        -- the destination was refused before
        if unset host rule (ethEnd vlan + 14) 4 then
          .ok (rule.store (field32 host (ethEnd vlan + 14) ipAddr ipNetmask))
        else .error .dstAddrConflict
      else .ok rule

def direction (tok : CStr) : Option Direction :=
  if tok = "dst".toList then some .dst else if tok = "src".toList then some .src else none

def operandKind (tok : CStr) : Option OperandKind :=
  if tok = "port".toList then some .port
  else if tok = "host".toList then some .host
  else if tok = "net".toList then some .net
  else none

/-- The loop over the remaining tokens. -/
def parseItems (rule : Ternary UInt8) : List CStr → Except FilterError (Ternary UInt8)
  | [] => .ok rule
  | tok :: toks =>
      match direction tok with
      | some d =>
          match toks with
          | [] => .error .missing
          | tok :: toks =>
              match operandKind tok with
              | none => .error (.operandKind tok)
              | some k =>
                  if k = .port ∧ !(p.tcp || p.udp) then .error .portProtocol
                  else if d = .dst ∧ p.arp then .error .arpTarget
                  else
                    match toks with
                    | [] => .error .missing
                    | tok :: toks =>
                        match parseOperand host shift32 tok k with
                        | .error e => .error e
                        | .ok operand =>
                            match update host vlan p rule d operand with
                            | .error e => .error e
                            | .ok rule => parseItems rule toks
      | none =>
          if tok = "type".toList then
            if !p.icmp then .error .typeProtocol
            else
              match toks with
              | [] => .error .missing
              | tok :: toks =>
                  let (value, endptr) := strtol tok
                  if endptr ≠ [] then .error (.type tok)
                  else parseItems (rule.store (field8 (ipEnd vlan) (.ofInt value) 0xFF)) toks
          else .error (.item tok)

end Items

/-- `exanic_parse_filter_string`: whether it is a drop rule, its pattern and its mask. -/
def exanicParseFilterString (host : ByteOrder) (shift32 : UInt32) (filter : CStr) :
    Except FilterError (Bool × Ternary UInt8) :=
  if filter.length > exanicFilterStringMaxLen - 1 then .error .tooLong
  else
    match parseAction (strtok ' ' filter) with
    | .error e => .error e
    | .ok (dropRule, toks) =>
        match parseVlan toks with
        | .error e => .error e
        | .ok (v, toks) =>
            let (p, toks) := parseProtocol toks
            match parseItems host shift32 v.vlan p (Ternary.blank.stores (headers host v p)) toks with
            | .error e => .error e
            | .ok rule => .ok (dropRule, rule)

end ExanicCapture.Firewall
