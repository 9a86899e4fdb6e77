/-
# Filter.Parse -- `parse_one_filter` and `apply_filters`

The parser works on the argument list in place: `parse_one_filter` takes the words of
one clause off its front and fills in one filter, and `apply_filters` installs that
filter, and the mirrored one when the clause is about both directions.

`parse_one_filter` returns 0 for a word it does not take.  `apply_filters` then looks
at the arguments that are left, and reports an error only if there are any.
-/
import ExanicCapture.Filter.Libc
import ExanicCapture.Save.Erf

namespace ExanicCapture.Filter

set_option autoImplicit false

open Theory Capture Save

/-! ## Keywords -/

/-- The items with an address. -/
inductive AddrItem where
  | host
  | dst
  | src
deriving DecidableEq

/-- The items with a port number. -/
inductive PortItem where
  | port
  | dport
  | sport
deriving DecidableEq

inductive ProtoItem where
  | tcp
  | udp
deriving DecidableEq

inductive Kind where
  | addr (k : AddrItem)
  | port (k : PortItem)
  | proto (k : ProtoItem)
deriving DecidableEq

inductive Keyword where
  | item (kind : Kind)
  | or
deriving DecidableEq

def orWord : CStr := ['o', 'r']

def Kind.word : Kind → CStr
  | .addr .host => ['h', 'o', 's', 't']
  | .addr .dst => ['d', 's', 't']
  | .addr .src => ['s', 'r', 'c']
  | .port .port => ['p', 'o', 'r', 't']
  | .port .dport => ['d', 'p', 'o', 'r', 't']
  | .port .sport => ['s', 'p', 'o', 'r', 't']
  | .proto .tcp => ['t', 'c', 'p']
  | .proto .udp => ['u', 'd', 'p']

/-- The chain of `strcmp`. -/
def keyword (word : CStr) : Option Keyword :=
  if word = Kind.word (.addr .host) then some (.item (.addr .host))
  else if word = Kind.word (.addr .dst) then some (.item (.addr .dst))
  else if word = Kind.word (.addr .src) then some (.item (.addr .src))
  else if word = Kind.word (.port .port) then some (.item (.port .port))
  else if word = Kind.word (.port .dport) then some (.item (.port .dport))
  else if word = Kind.word (.port .sport) then some (.item (.port .sport))
  else if word = Kind.word (.proto .tcp) then some (.item (.proto .tcp))
  else if word = Kind.word (.proto .udp) then some (.item (.proto .udp))
  else if word = orWord then some .or
  else none

/-! ## What one clause has specified so far -/

/-- `host_specified` and so on. -/
structure Specified where
  host : Bool
  dst : Bool
  src : Bool
  port : Bool
  dport : Bool
  sport : Bool
  proto : Bool
deriving DecidableEq

namespace Specified

def nothing : Specified := ⟨false, false, false, false, false, false, false⟩

/-- The checks in front of an item that make it return 0. -/
def refuses (s : Specified) : Kind → Bool
  | .addr .host => s.host || (s.dst || s.src || s.dport || s.sport)
  | .addr .dst => s.dst || (s.host || s.port)
  | .addr .src => s.src || (s.host || s.port)
  | .port .port => s.port || (s.dst || s.src || s.dport || s.sport)
  | .port .dport => s.dport || (s.host || s.port)
  | .port .sport => s.sport || (s.host || s.port)
  | .proto _ => s.proto

def set (s : Specified) : Kind → Specified
  | .addr .host => { s with host := true }
  | .addr .dst => { s with dst := true }
  | .addr .src => { s with src := true }
  | .port .port => { s with port := true }
  | .port .dport => { s with dport := true }
  | .port .sport => { s with sport := true }
  | .proto _ => { s with proto := true }

/-- `*bidir`. -/
def bidir (s : Specified) : Bool := s.host || s.port

end Specified

/-! ## Filters -/

/-- `exanic_ip_filter_t`: a zero field matches everything. -/
structure ExanicIpFilter where
  srcAddr : UInt32
  dstAddr : UInt32
  srcPort : UInt16
  dstPort : UInt16
  protocol : UInt8
deriving DecidableEq

/-- `htonl`. -/
def htonl (host : ByteOrder) (n : UInt32) : UInt32 :=
  .ofNat (ByteOrder.recode host .big 4 n.toNat)

/-- `IPPROTO_TCP` and `IPPROTO_UDP`. -/
def ProtoItem.number : ProtoItem → UInt8
  | .tcp => 6
  | .udp => 17

namespace ExanicIpFilter

/-- After the `memset`. -/
def zero : ExanicIpFilter := ⟨0, 0, 0, 0, 0⟩

def setAddr (f : ExanicIpFilter) (k : AddrItem) (addr : UInt32) : ExanicIpFilter :=
  match k with
  | .host | .dst => { f with dstAddr := addr }
  | .src => { f with srcAddr := addr }

def setPort (f : ExanicIpFilter) (k : PortItem) (port : UInt16) : ExanicIpFilter :=
  match k with
  | .port | .dport => { f with dstPort := port }
  | .sport => { f with srcPort := port }

/-- The second filter of a clause about both directions. -/
def mirrored (f : ExanicIpFilter) : ExanicIpFilter :=
  { f with srcAddr := f.dstAddr, dstAddr := 0, srcPort := f.dstPort, dstPort := 0 }

end ExanicIpFilter

/-! ## `parse_one_filter` -/

/-- The result of `parse_one_filter`, with the arguments it has left.  When it returns
0 its caller reads neither the filter nor `bidir`. -/
inductive Parsed where
  | clause (filter : ExanicIpFilter) (bidir : Bool) (argv : List CStr)
  | error (argv : List CStr)
deriving DecidableEq

/-- The `while` loop. -/
def parseWords (host : ByteOrder) (s : Specified) (f : ExanicIpFilter) : List CStr → Parsed
  | [] => .clause f s.bidir []
  | word :: argv =>
      match keyword word with
      | some (.item (.addr k)) =>
          if s.refuses (.addr k) then .error (word :: argv)
          else
            match argv with
            | [] => .error []
            | operand :: argv =>
                match inetAton operand with
                | none => .error (operand :: argv)
                | some ip => parseWords host (s.set (.addr k)) (f.setAddr k (htonl host ip)) argv
      | some (.item (.port k)) =>
          if s.refuses (.port k) then .error (word :: argv)
          else
            match argv with
            | [] => .error []
            | operand :: argv =>
                let (value, endptr) := strtoul operand
                if endptr = [] then
                  parseWords host (s.set (.port k)) (f.setPort k (htons host (.ofNat value))) argv
                else .error (operand :: argv)
      | some (.item (.proto k)) =>
          if s.refuses (.proto k) then .error (word :: argv)
          else parseWords host (s.set (.proto k)) { f with protocol := k.number } argv
      | some .or => .clause f s.bidir argv
      | none => .error (word :: argv)

/-- `parse_one_filter`. -/
def parseOneFilter (host : ByteOrder) (argv : List CStr) : Parsed :=
  parseWords host .nothing .zero argv

/-- A clause takes at least one word off the arguments, unless there are none. -/
theorem parseWords_length {host : ByteOrder} {s : Specified} {f f' : ExanicIpFilter}
    {bidir : Bool} {argv rest : List CStr}
    (parsed : parseWords host s f argv = .clause f' bidir rest) :
    rest.length ≤ argv.length - 1 := by
  fun_induction parseWords host s f argv with
  | case1 s f =>
      cases parsed
      exact Nat.le_refl _
  | case5 s f word k key fits operand argv ip found ih =>
      exact (ih parsed).trans (by simp only [List.length_cons]; omega)
  | case8 s f word k key fits operand argv value read ih =>
      exact (ih parsed).trans (by simp only [List.length_cons]; omega)
  | case11 s f word argv k key fits ih =>
      exact (ih parsed).trans (by simp only [List.length_cons]; omega)
  | case12 s f word argv key =>
      cases parsed
      simp
  | _ => cases parsed

theorem parseOneFilter_shorter {host : ByteOrder} {f : ExanicIpFilter} {bidir : Bool}
    {argv rest : List CStr} (nonempty : argv ≠ [])
    (parsed : parseOneFilter host argv = .clause f bidir rest) : rest.length < argv.length := by
  have fewer := parseWords_length parsed
  have some := List.length_pos_iff.2 nonempty
  omega

/-! ## `apply_filters` -/

/-- Whether `apply_filters` returns 1, and the filters that are installed. -/
structure Applied where
  returned : Bool
  installed : List ExanicIpFilter
deriving DecidableEq

section

/- `add` is what `exanic_filter_add_ip` returns, given the filters that are installed
already. -/
variable (host : ByteOrder) (add : List ExanicIpFilter → ExanicIpFilter → Int)

/-- The body of the loop: one filter, or both of a clause about both directions. -/
def addFilters (installed : List ExanicIpFilter) (f : ExanicIpFilter) (bidir : Bool) : Applied :=
  if add installed f = -1 then { returned := false, installed }
  else if bidir then
    if add (installed ++ [f]) f.mirrored = -1 then
      { returned := false, installed := installed ++ [f] }
    else { returned := true, installed := installed ++ [f, f.mirrored] }
  else { returned := true, installed := installed ++ [f] }

/-- `apply_filters`. -/
def applyFilters (installed : List ExanicIpFilter) (argv : List CStr) : Applied :=
  if _ : argv = [] then { returned := true, installed }
  else
    match _ : parseOneFilter host argv with
    | .error rest => { returned := decide (rest = []), installed }
    | .clause f bidir rest =>
        let added := addFilters add installed f bidir
        if added.returned then applyFilters added.installed rest else added
termination_by argv.length
decreasing_by exact parseOneFilter_shorter ‹_› ‹_›

end

end ExanicCapture.Filter
