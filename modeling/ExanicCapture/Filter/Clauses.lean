/-
# Filter.Clauses -- filter expressions, and what the parser makes of them

A filter expression is a list of clauses, a clause a list of items.  `argvOf` is its
list of words.  The items of a clause have to go together (`Clause.Shape`): no two of
their kinds conflict, which is what the flags of the parser find out one item at a
time (`Specified.refuses_set`).

`applyFilters_argvOf`: the parser installs the filters of every clause, in order.
-/
import ExanicCapture.Filter.Parse

namespace ExanicCapture.Filter

set_option autoImplicit false

open Theory Capture Save

/-! ## Items -/

inductive Item where
  | addr (k : AddrItem) (operand : CStr)
  | port (k : PortItem) (operand : CStr)
  | proto (k : ProtoItem)
deriving DecidableEq

namespace Item

def kind : Item → Kind
  | .addr k _ => .addr k
  | .port k _ => .port k
  | .proto k => .proto k

def words : Item → List CStr
  | .addr k operand => [Kind.word (.addr k), operand]
  | .port k operand => [Kind.word (.port k), operand]
  | .proto k => [Kind.word (.proto k)]

/-- The C library takes the operand: `inet_aton` accepts it, or `strtoul` reads all of
it. -/
def accepted : Item → Bool
  | .addr _ operand => (inetAton operand).isSome
  | .port _ operand => decide ((strtoul operand).2 = [])
  | .proto _ => true

end Item

namespace Kind

/-- `host` and `port`, about both directions. -/
def undirected : Kind → Bool
  | .addr .host => true
  | .port .port => true
  | _ => false

def directed : Kind → Bool
  | .addr .dst => true
  | .addr .src => true
  | .port .dport => true
  | .port .sport => true
  | _ => false

def isProto : Kind → Bool
  | .proto _ => true
  | _ => false

/-- Two items of these kinds do not go together in a clause. -/
def conflicts (k k' : Kind) : Bool :=
  decide (k = k') || k.isProto && k'.isProto || k.undirected && k'.directed ||
    k.directed && k'.undirected

theorem conflicts_comm (k k' : Kind) : k.conflicts k' = k'.conflicts k := by
  simp only [conflicts, eq_comm (a := k), Bool.and_comm (x := k.isProto)]
  cases k.undirected <;> cases k.directed <;> cases k'.undirected <;> cases k'.directed <;> simp

end Kind

/-- The flags refuse what conflicts with an item that set one of them. -/
theorem Specified.refuses_set (s : Specified) (k k' : Kind) :
    (s.set k).refuses k' = (s.refuses k' || k.conflicts k') := by
  obtain ⟨host, dst, src, port, dport, sport, proto⟩ := s
  rcases k with (_ | _ | _) | (_ | _ | _) | (_ | _) <;>
    rcases k' with (_ | _ | _) | (_ | _ | _) | (_ | _) <;>
    simp [Specified.set, Specified.refuses, Kind.conflicts, Kind.undirected, Kind.directed,
      Kind.isProto]

@[simp] theorem Specified.refuses_nothing (k : Kind) : nothing.refuses k = false := by
  rcases k with (_ | _ | _) | (_ | _ | _) | _ <;> rfl

@[simp] theorem keyword_word (k : Kind) : keyword k.word = some (.item k) := by
  rcases k with (_ | _ | _) | (_ | _ | _) | (_ | _) <;> decide

@[simp] theorem keyword_or : keyword orWord = some .or := by decide

/-! ## Clauses -/

abbrev Clause := List Item

namespace Clause

def kinds (c : Clause) : List Kind := c.map Item.kind

def words (c : Clause) : List CStr := c.flatMap Item.words

/-- A clause as it has to be: not empty, every kind of item at most once, at most one of
`tcp` and `udp`, and `host` and `port` not mixed with `dst`, `src`, `dport` and
`sport`. -/
structure Shape (c : Clause) : Prop where
  nonempty : c ≠ []
  once : c.kinds.Nodup
  oneProto : ¬ (.proto .tcp ∈ c.kinds ∧ .proto .udp ∈ c.kinds)
  unmixed : (∀ k ∈ c.kinds, k.undirected = false) ∨ ∀ k ∈ c.kinds, k.directed = false

/-- No two items conflict. -/
def Apart (c : Clause) : Prop := c.kinds.Pairwise fun k k' => k.conflicts k' = false

/-- The kinds of a clause with items apart do not conflict, in whatever order. -/
theorem Apart.not_conflicts {c : Clause} (apart : c.Apart) {k k' : Kind} (first : k ∈ c.kinds)
    (second : k' ∈ c.kinds) (ne : k ≠ k') : k.conflicts k' = false :=
  have : Std.Symm fun k k' : Kind => k.conflicts k' = false :=
    ⟨fun k k' free => by rwa [Kind.conflicts_comm]⟩
  List.Pairwise.forall apart first second ne

theorem shape_iff {c : Clause} : c.Shape ↔ c ≠ [] ∧ c.Apart := by
  constructor
  · intro shape
    refine ⟨shape.nonempty, shape.once.imp_of_mem fun {k k'} first second ne => ?_⟩
    have protos : (k.isProto && k'.isProto) = false := by
      by_contra both
      rcases k with _ | _ | (_ | _) <;> rcases k' with _ | _ | (_ | _) <;>
        simp [Kind.isProto] at both ne
      · exact shape.oneProto ⟨first, second⟩
      · exact shape.oneProto ⟨second, first⟩
    rcases shape.unmixed with all | all
    · simp [Kind.conflicts, ne, protos, all k first, all k' second]
    · simp [Kind.conflicts, ne, protos, all k first, all k' second]
  · rintro ⟨nonempty, apart⟩
    refine ⟨nonempty, apart.imp fun {k k'} free same => ?_, fun ⟨tcp, udp⟩ => ?_, ?_⟩
    · simp [Kind.conflicts, same] at free
    · exact absurd (apart.not_conflicts tcp udp (by decide)) (by decide)
    · by_contra mixed
      simp only [not_or, not_forall, Bool.not_eq_false] at mixed
      obtain ⟨⟨k, first, undirected⟩, k', second, directed⟩ := mixed
      have ne : k ≠ k' := by
        rintro rfl
        rcases k with (_ | _ | _) | (_ | _ | _) | _ <;>
          simp [Kind.undirected, Kind.directed] at undirected directed
      have free := apart.not_conflicts first second ne
      simp [Kind.conflicts, undirected, directed] at free

end Clause

/-- The words of an expression. -/
def argvOf (clauses : List Clause) : List CStr := [orWord].intercalate (clauses.map Clause.words)

theorem argvOf_cons (c c' : Clause) (clauses : List Clause) :
    argvOf (c :: c' :: clauses) = c.words ++ orWord :: argvOf (c' :: clauses) := by
  simp [argvOf]

/-! ## The filters of a clause -/

/-- What an item that is accepted writes into the filter. -/
def ExanicIpFilter.take (host : ByteOrder) (f : ExanicIpFilter) : Item → ExanicIpFilter
  | .addr k operand => f.setAddr k (htonl host ((inetAton operand).getD 0))
  | .port k operand => f.setPort k (htons host (.ofNat (strtoul operand).1))
  | .proto k => { f with protocol := k.number }

namespace Clause

/-- The filter `parse_one_filter` fills in. -/
def filter (host : ByteOrder) (c : Clause) : ExanicIpFilter :=
  c.foldl (ExanicIpFilter.take host) .zero

def bidir (c : Clause) : Bool := c.any (·.kind.undirected)

/-- The filters that are installed. -/
def filters (host : ByteOrder) (c : Clause) : List ExanicIpFilter :=
  c.filter host :: if c.bidir then [(c.filter host).mirrored] else []

end Clause

/-! ## The parser on a clause -/

section

variable (host : ByteOrder) {s : Specified} {f : ExanicIpFilter}

/-- One item, accepted. -/
theorem parseWords_item {i : Item} (fits : s.refuses i.kind = false) (accepted : i.accepted = true)
    (argv : List CStr) :
    parseWords host s f (i.words ++ argv) =
      parseWords host (s.set i.kind) (f.take host i) argv := by
  cases i with
  | addr k operand =>
      obtain ⟨ip, found⟩ := Option.isSome_iff_exists.1 accepted
      have fits : s.refuses (.addr k) = false := fits
      simp [Item.words, parseWords, fits, found, Item.kind, ExanicIpFilter.take]
  | port k operand =>
      have whole : (strtoul operand).2 = [] := by simpa [Item.accepted] using accepted
      have fits : s.refuses (.port k) = false := fits
      simp [Item.words, parseWords, fits, whole, Item.kind, ExanicIpFilter.take]
  | proto k =>
      have fits : s.refuses (.proto k) = false := fits
      simp [Item.words, parseWords, fits, Item.kind, ExanicIpFilter.take]

/-- All items of a clause, one after the other. -/
theorem parseWords_words {c : Clause} (apart : c.Apart)
    (fits : ∀ i ∈ c, s.refuses i.kind = false) (accepted : ∀ i ∈ c, i.accepted = true)
    (argv : List CStr) :
    parseWords host s f (c.words ++ argv) =
      parseWords host (c.foldl (fun s i => s.set i.kind) s) (c.foldl (ExanicIpFilter.take host) f)
        argv := by
  induction c generalizing s f with
  | nil => rfl
  | cons i c ih =>
      obtain ⟨first, others⟩ := List.pairwise_cons.1 apart
      have step : s.refuses i.kind = false := fits i (List.mem_cons_self ..)
      show parseWords host s f (i.words ++ Clause.words c ++ argv) = _
      rw [List.append_assoc, parseWords_item host step (accepted i (List.mem_cons_self ..))]
      refine ih others (fun j member => ?_) fun j member =>
        accepted j (List.mem_cons_of_mem _ member)
      rw [Specified.refuses_set, fits j (List.mem_cons_of_mem _ member),
        first j.kind (List.mem_map_of_mem member)]
      rfl

theorem bidir_set (s : Specified) (k : Kind) : (s.set k).bidir = (s.bidir || k.undirected) := by
  rcases k with (_ | _ | _) | (_ | _ | _) | _ <;>
    simp [Specified.set, Specified.bidir, Kind.undirected]

theorem bidir_foldl (c : Clause) (s : Specified) :
    (c.foldl (fun s i => s.set i.kind) s).bidir = (s.bidir || c.bidir) := by
  induction c generalizing s with
  | nil => simp [Clause.bidir]
  | cons i c ih =>
      rw [List.foldl_cons, ih, bidir_set, Clause.bidir, Clause.bidir, List.any_cons, Bool.or_assoc]

/-- `parse_one_filter` takes the items of a clause, and the `or` behind it. -/
theorem parseOneFilter_clause {c : Clause} (shape : c.Shape)
    (accepted : ∀ i ∈ c, i.accepted = true) :
    parseOneFilter host c.words = .clause (c.filter host) c.bidir [] ∧
      ∀ argv, parseOneFilter host (c.words ++ orWord :: argv) =
        .clause (c.filter host) c.bidir argv := by
  have reads (argv : List CStr) := parseWords_words host (f := .zero)
    (Clause.shape_iff.1 shape).2 (fun i _ => Specified.refuses_nothing i.kind) accepted argv
  constructor
  · have last := reads []
    rw [List.append_nil] at last
    rw [parseOneFilter, last, parseWords, bidir_foldl]
    rfl
  · intro argv
    rw [parseOneFilter, reads, parseWords, keyword_or, bidir_foldl]
    rfl

end

/-! ## The parser on an expression -/

/-- All additions of filters succeed. -/
def Succeeds (add : List ExanicIpFilter → ExanicIpFilter → Int) : Prop :=
  ∀ installed f, add installed f ≠ -1

section

variable (host : ByteOrder) {add : List ExanicIpFilter → ExanicIpFilter → Int}

theorem addFilters_succeeds (succeeds : Succeeds add) (installed : List ExanicIpFilter)
    (f : ExanicIpFilter) (bidir : Bool) :
    addFilters add installed f bidir =
      { returned := true, installed := installed ++ f :: if bidir then [f.mirrored] else [] } := by
  cases bidir <;> simp [addFilters, succeeds installed, succeeds (installed ++ [f])]

theorem applyFilters_nil (installed : List ExanicIpFilter) :
    applyFilters host add installed [] = { returned := true, installed } := by
  rw [applyFilters]
  rfl

/-- A clause the parser reads is installed, and the arguments behind it are next. -/
theorem applyFilters_clause {installed : List ExanicIpFilter} {argv rest : List CStr}
    {f : ExanicIpFilter} {bidir : Bool} (nonempty : argv ≠ [])
    (parsed : parseOneFilter host argv = .clause f bidir rest) :
    applyFilters host add installed argv =
      if (addFilters add installed f bidir).returned then
        applyFilters host add (addFilters add installed f bidir).installed rest
      else addFilters add installed f bidir := by
  rw [applyFilters, dif_neg nonempty]
  split
  · rename_i failed
    rw [parsed] at failed
    cases failed
  · rename_i read
    rw [parsed] at read
    cases read
    rfl

theorem applyFilters_error {installed : List ExanicIpFilter} {argv rest : List CStr}
    (nonempty : argv ≠ []) (parsed : parseOneFilter host argv = .error rest) :
    applyFilters host add installed argv = { returned := decide (rest = []), installed } := by
  rw [applyFilters, dif_neg nonempty]
  split
  · rename_i failed
    rw [parsed] at failed
    cases failed
    rfl
  · rename_i read
    rw [parsed] at read
    cases read

theorem Clause.words_ne_nil {c : Clause} (nonempty : c ≠ []) : c.words ≠ [] := by
  cases c with
  | nil => exact absurd rfl nonempty
  | cons i c => cases i <;> simp [Clause.words, Item.words]

/-- The filters of every clause are installed, in order. -/
theorem applyFilters_argvOf (succeeds : Succeeds add) {clauses : List Clause}
    (shape : ∀ c ∈ clauses, c.Shape) (accepted : ∀ c ∈ clauses, ∀ i ∈ c, i.accepted = true)
    (installed : List ExanicIpFilter) :
    applyFilters host add installed (argvOf clauses) =
      { returned := true, installed := installed ++ clauses.flatMap (Clause.filters host) } := by
  induction clauses generalizing installed with
  | nil =>
      rw [List.flatMap_nil, List.append_nil]
      exact applyFilters_nil host installed
  | cons c clauses ih =>
      have one := shape c (List.mem_cons_self ..)
      obtain ⟨last, before⟩ := parseOneFilter_clause host one (accepted c (List.mem_cons_self ..))
      have next := ih (fun c member => shape c (List.mem_cons_of_mem _ member))
        (fun c member => accepted c (List.mem_cons_of_mem _ member))
        (installed ++ c.filters host)
      have nonempty : c.words ≠ [] := Clause.words_ne_nil one.nonempty
      rw [List.flatMap_cons, ← List.append_assoc, ← next]
      cases clauses with
      | nil =>
          have words : argvOf [c] = c.words := by simp [argvOf]
          rw [words, applyFilters_clause host nonempty last, addFilters_succeeds succeeds]
          rfl
      | cons c' clauses =>
          rw [argvOf_cons, applyFilters_clause host (by simp) (before _),
            addFilters_succeeds succeeds]
          rfl

end

end ExanicCapture.Filter
