/-
# Filter.Grammar -- which argument lists the parser accepts

`FilterExpr` is the grammar of filter expressions.  The parser accepts more: it takes
a list that ends behind a keyword, an empty clause, an empty port number, and a port
number that does not fit 16 bits.  `agrees_iff` says that nothing else goes wrong.

To say so, an argument list is read as a list of tokens, without any check (`lex`),
and split at the words `or` (`clausesOf`).  The parser returns 1 exactly when it
refuses no clause (`applyFilters_returned`), and the list is an expression when
moreover every clause is non-empty and its tokens are sound (`filterExpr_iff`).
-/
import ExanicCapture.Filter.Clauses

namespace ExanicCapture.Filter

set_option autoImplicit false

open Theory Capture Save

/-! ## The grammar -/

/-- The operand of a grammatical item: an address, or a numeral from 0 to 65535. -/
def Item.Proper : Item → Prop
  | .addr _ operand => (inetAton operand).isSome
  | .port _ operand => ∃ n : ℕ, numeral operand = some (n : Int) ∧ n ≤ 65535
  | .proto _ => True

structure Clause.Grammatical (c : Clause) : Prop where
  shape : c.Shape
  proper : ∀ i ∈ c, i.Proper

/-- One or more clauses, separated by single words `or`. -/
def FilterExpr (argv : List CStr) : Prop :=
  ∃ clauses : List Clause, clauses ≠ [] ∧ (∀ c ∈ clauses, c.Grammatical) ∧ argv = argvOf clauses

/-- The filter has the value of the item, in network byte order. -/
def Item.PlacedIn (host : ByteOrder) (f : ExanicIpFilter) : Item → Prop
  | .addr .src operand => ∃ addr, inetAton operand = some addr ∧ f.srcAddr = htonl host addr
  | .addr _ operand => ∃ addr, inetAton operand = some addr ∧ f.dstAddr = htonl host addr
  | .port .sport operand =>
      ∃ n : ℕ, numeral operand = some (n : Int) ∧ f.srcPort = htons host (.ofNat n)
  | .port _ operand =>
      ∃ n : ℕ, numeral operand = some (n : Int) ∧ f.dstPort = htons host (.ofNat n)
  | .proto k => f.protocol = k.number

/-- The parser and the grammar agree on an argument list: it is accepted exactly when
it is an expression, and then every value ends up in the filter of its clause. -/
structure Agrees (host : ByteOrder) (add : List ExanicIpFilter → ExanicIpFilter → Int)
    (argv : List CStr) : Prop where
  accepts : (applyFilters host add [] argv).returned = true ↔ FilterExpr argv
  places : ∀ clauses, (∀ c ∈ clauses, c.Grammatical) → argv = argvOf clauses →
    (applyFilters host add [] argv).installed = clauses.flatMap (Clause.filters host) ∧
      ∀ c ∈ clauses, ∀ i ∈ c, i.PlacedIn host (c.filter host)

/-! ## Tokens -/

inductive Token where
  | item (i : Item)
  | or
  /-- A keyword at the end of the list, without its operand. -/
  | cut (k : Kind)
  /-- A word that is no keyword. -/
  | word (w : CStr)
deriving DecidableEq

/-- The tokens of an argument list. -/
def lex : List CStr → List Token
  | [] => []
  | word :: argv =>
      match keyword word with
      | some (.item (.addr k)) =>
          match argv with
          | [] => [.cut (.addr k)]
          | operand :: argv => .item (.addr k operand) :: lex argv
      | some (.item (.port k)) =>
          match argv with
          | [] => [.cut (.port k)]
          | operand :: argv => .item (.port k operand) :: lex argv
      | some (.item (.proto k)) => .item (.proto k) :: lex argv
      | some .or => .or :: lex argv
      | none => .word word :: lex argv

/-- What stands between the words `or`. -/
def clausesOf (argv : List CStr) : List (List Token) := (lex argv).splitOn .or

namespace Token

def words : Token → List CStr
  | .item i => i.words
  | .or => [orWord]
  | .cut k => [k.word]
  | .word w => [w]

def kind : Token → Option Kind
  | .item i => some i.kind
  | .cut k => some k
  | _ => none

/-- A keyword, whose operand (if it is there) the C library takes. -/
def readable : Token → Bool
  | .item i => i.accepted
  | .word _ => false
  | _ => true

/-- An item with an operand; a port number is not empty, and its value is from 0 to
65535. -/
def Sound : Token → Prop
  | .item (.port _ operand) => operand ≠ [] ∧ ∀ v, numeral operand = some v → 0 ≤ v ∧ v ≤ 65535
  | .item _ => True
  | _ => False

instance : (t : Token) → Decidable t.Sound
  | .item (.port _ operand) =>
      inferInstanceAs (Decidable (operand ≠ [] ∧ ∀ v ∈ numeral operand, 0 ≤ v ∧ v ≤ 65535))
  | .item (.addr _ _) | .item (.proto _) => inferInstanceAs (Decidable True)
  | .or | .cut _ | .word _ => inferInstanceAs (Decidable False)

end Token

/-- The kinds of the items of a clause. -/
def kindsOf (c : List Token) : List Kind := c.filterMap Token.kind

/-- The parser refuses a clause: for a word that is no keyword, an operand that is not
taken, or two items that do not go together. -/
def Refused (c : List Token) : Prop :=
  (∃ t ∈ c, t.readable = false) ∨
    ¬ (kindsOf c).Pairwise fun k k' => k.conflicts k' = false

instance (c : List Token) : Decidable (Refused c) :=
  inferInstanceAs (Decidable ((∃ t ∈ c, t.readable = false) ∨
    ¬ (kindsOf c).Pairwise fun k k' => k.conflicts k' = false))

/-! ## What the parser accepts -/

/-- The parser on tokens, behind items that have set these flags. -/
def accepts (s : Specified) : List Token → Bool
  | [] => true
  | .or :: ts => accepts .nothing ts
  | .item i :: ts => !s.refuses i.kind && (i.accepted && accepts (s.set i.kind) ts)
  | .cut k :: ts => !s.refuses k && accepts (s.set k) ts
  | .word _ :: _ => false

section

variable (host : ByteOrder)

/-- One clause of the parser.  It returns 0 without arguments left only behind a
keyword, and that is accepted. -/
theorem parseWords_accepts (s : Specified) (f : ExanicIpFilter) (argv : List CStr) :
    match parseWords host s f argv with
    | .clause _ _ rest => accepts s (lex argv) = accepts .nothing (lex rest)
    | .error rest => accepts s (lex argv) = decide (rest = []) := by
  fun_induction parseWords host s f argv with
  | case1 s f => rfl
  | case2 s f word argv k key refused =>
      show accepts s (lex (word :: argv)) = false
      cases argv <;> simp [lex, key, accepts, Item.kind, refused]
  | case3 s f word k key fits =>
      show accepts s (lex [word]) = true
      simp [lex, key, accepts, fits]
  | case4 s f word k key fits operand argv unknown =>
      show accepts s (lex (word :: operand :: argv)) = false
      simp [lex, key, accepts, Item.accepted, unknown]
  | case5 s f word k key fits operand argv ip found ih =>
      have step : accepts s (lex (word :: operand :: argv)) =
          accepts (s.set (.addr k)) (lex argv) := by
        simp [lex, key, accepts, Item.kind, Item.accepted, fits, found]
      rw [step]
      exact ih
  | case6 s f word argv k key refused =>
      show accepts s (lex (word :: argv)) = false
      cases argv <;> simp [lex, key, accepts, Item.kind, refused]
  | case7 s f word k key fits =>
      show accepts s (lex [word]) = true
      simp [lex, key, accepts, fits]
  | case8 s f word k key fits operand argv value read ih =>
      have step : accepts s (lex (word :: operand :: argv)) =
          accepts (s.set (.port k)) (lex argv) := by
        simp [lex, key, accepts, Item.kind, Item.accepted, fits, read]
      rw [step]
      exact ih
  | case9 s f word k key fits operand argv value endptr read rest =>
      show accepts s (lex (word :: operand :: argv)) = false
      simp [lex, key, accepts, Item.accepted, read, rest]
  | case10 s f word argv k key refused =>
      show accepts s (lex (word :: argv)) = false
      simp [lex, key, accepts, Item.kind, refused]
  | case11 s f word argv k key fits ih =>
      have step : accepts s (lex (word :: argv)) = accepts (s.set (.proto k)) (lex argv) := by
        simp [lex, key, accepts, Item.kind, Item.accepted, fits]
      rw [step]
      exact ih
  | case12 s f word argv key =>
      show accepts s (lex (word :: argv)) = _
      simp [lex, key, accepts]
  | case13 s f word argv key =>
      show accepts s (lex (word :: argv)) = false
      simp [lex, key, accepts]

/-- `apply_filters` returns 1 exactly for the lists that are accepted. -/
theorem applyFilters_accepts {add : List ExanicIpFilter → ExanicIpFilter → Int}
    (succeeds : Succeeds add) (installed : List ExanicIpFilter) (argv : List CStr) :
    (applyFilters host add installed argv).returned = accepts .nothing (lex argv) := by
  by_cases nonempty : argv = []
  · rw [nonempty, applyFilters_nil]
    rfl
  · have taken := parseWords_accepts host .nothing .zero argv
    cases parsed : parseOneFilter host argv with
    | error rest =>
        rw [applyFilters_error host nonempty parsed]
        rw [parseOneFilter] at parsed
        rw [parsed] at taken
        exact taken.symm
    | clause f bidir rest =>
        have shorter := parseOneFilter_shorter nonempty parsed
        rw [applyFilters_clause host nonempty parsed, addFilters_succeeds succeeds]
        rw [parseOneFilter] at parsed
        rw [parsed] at taken
        rw [taken]
        exact applyFilters_accepts succeeds _ rest
termination_by argv.length

end

/-! ## Clause by clause -/

/-- The parser takes all tokens of a clause, behind items that have set these flags. -/
structure Admits (s : Specified) (c : List Token) : Prop where
  readable : ∀ t ∈ c, t.readable = true
  fits : ∀ k ∈ kindsOf c, s.refuses k = false
  apart : (kindsOf c).Pairwise fun k k' => k.conflicts k' = false

theorem admits_nothing {c : List Token} : Admits .nothing c ↔ ¬ Refused c := by
  constructor
  · rintro ⟨readable, -, apart⟩ (⟨t, member, unreadable⟩ | mixed)
    · rw [readable t member] at unreadable
      cases unreadable
    · exact mixed apart
  · intro accepted
    simp only [Refused, not_or, not_exists, not_and, Bool.not_eq_false, not_not] at accepted
    exact ⟨accepted.1, fun k _ => Specified.refuses_nothing k, accepted.2⟩

theorem admits_nil (s : Specified) : Admits s [] :=
  ⟨by simp, by simp [kindsOf], by simp [kindsOf]⟩

/-- A token with a kind sets its flag for those behind it. -/
theorem admits_cons {s : Specified} {t : Token} {k : Kind} {c : List Token}
    (kind : t.kind = some k) :
    Admits s (t :: c) ↔ s.refuses k = false ∧ t.readable = true ∧ Admits (s.set k) c := by
  have kinds : kindsOf (t :: c) = k :: kindsOf c := by simp [kindsOf, kind]
  constructor
  · rintro ⟨readable, fits, apart⟩
    rw [kinds] at fits apart
    obtain ⟨first, others⟩ := List.pairwise_cons.1 apart
    refine ⟨fits k (List.mem_cons_self ..), readable t (List.mem_cons_self ..),
      fun t member => readable t (List.mem_cons_of_mem _ member), fun k' member => ?_, others⟩
    rw [Specified.refuses_set, fits k' (List.mem_cons_of_mem _ member), first k' member]
    rfl
  · rintro ⟨fits, readable, rest⟩
    have both : ∀ k' ∈ kindsOf c, s.refuses k' = false ∧ k.conflicts k' = false := by
      intro k' member
      have flags := rest.fits k' member
      rwa [Specified.refuses_set, Bool.or_eq_false_iff] at flags
    refine ⟨List.forall_mem_cons.2 ⟨readable, rest.readable⟩, ?_, ?_⟩
    · rw [kinds]
      exact List.forall_mem_cons.2 ⟨fits, fun k' member => (both k' member).1⟩
    · rw [kinds]
      exact List.pairwise_cons.2 ⟨fun k' member => (both k' member).2, rest.apart⟩

theorem accepts_cons {s : Specified} {t : Token} {k : Kind} {ts : List Token}
    (kind : t.kind = some k) :
    accepts s (t :: ts) = (!s.refuses k && (t.readable && accepts (s.set k) ts)) := by
  cases t with
  | item i =>
      cases kind
      rfl
  | cut k =>
      cases kind
      simp [accepts, Token.readable]
  | or => cases kind
  | word w => cases kind

/-- A token inside a clause is the head of the first clause. -/
theorem splitOn_cons {t : Token} (inside : t ≠ .or) {ts c : List Token} {cs : List (List Token)}
    (split : ts.splitOn .or = c :: cs) : (t :: ts).splitOn .or = (t :: c) :: cs := by
  rw [List.splitOn_cons_eq_if_modifyHead, if_neg (by simpa using inside), split]
  rfl

/-- What is accepted, clause by clause. -/
theorem accepts_iff (s : Specified) (ts : List Token) :
    ∃ c cs, ts.splitOn .or = c :: cs ∧
      (accepts s ts = true ↔ Admits s c ∧ ∀ c ∈ cs, Admits .nothing c) := by
  induction ts generalizing s with
  | nil => exact ⟨[], [], rfl, by simp [accepts, admits_nil]⟩
  | cons t ts ih =>
      cases kind : t.kind with
      | some k =>
          obtain ⟨c, cs, split, accepted⟩ := ih (s.set k)
          have inside : t ≠ .or := by
            rintro rfl
            cases kind
          refine ⟨t :: c, cs, splitOn_cons inside split, ?_⟩
          rw [accepts_cons kind, admits_cons kind, Bool.and_eq_true, Bool.and_eq_true, accepted,
            Bool.not_eq_true', and_assoc, and_assoc]
      | none =>
          cases t with
          | or =>
              obtain ⟨c, cs, split, accepted⟩ := ih .nothing
              refine ⟨[], c :: cs, ?_, ?_⟩
              · rw [List.splitOn_cons_eq_if_modifyHead, if_pos (beq_self_eq_true _), split]
              · rw [accepts, accepted, List.forall_mem_cons]
                exact (and_iff_right (admits_nil s)).symm
          | word w =>
              obtain ⟨c, cs, split, -⟩ := ih .nothing
              refine ⟨.word w :: c, cs, splitOn_cons (by simp) split, ?_⟩
              refine iff_of_false (by simp [accepts]) ?_
              intro admits
              have readable := admits.1.readable (.word w) (List.mem_cons_self ..)
              cases readable
          | item i => cases kind
          | cut k => cases kind

/-- **`apply_filters` returns 1 exactly when the parser refuses no clause.** -/
theorem applyFilters_returned (host : ByteOrder)
    {add : List ExanicIpFilter → ExanicIpFilter → Int} (succeeds : Succeeds add)
    (installed : List ExanicIpFilter) (argv : List CStr) :
    (applyFilters host add installed argv).returned = true ↔
      ∀ c ∈ clausesOf argv, ¬ Refused c := by
  obtain ⟨c, cs, split, accepted⟩ := accepts_iff .nothing (lex argv)
  rw [applyFilters_accepts host succeeds, accepted, clausesOf, split, List.forall_mem_cons]
  simp only [admits_nothing]

/-! ## What the grammar accepts -/

theorem lex_item (i : Item) (argv : List CStr) : lex (i.words ++ argv) = .item i :: lex argv := by
  cases i <;> simp [Item.words, lex]

theorem lex_words (c : Clause) (argv : List CStr) :
    lex (c.words ++ argv) = c.map Token.item ++ lex argv := by
  induction c with
  | nil => rfl
  | cons i c ih =>
      show lex (i.words ++ Clause.words c ++ argv) = _
      rw [List.append_assoc, lex_item, ih]
      rfl

/-- The tokens of an expression. -/
theorem clausesOf_argvOf {clauses : List Clause} (some : clauses ≠ []) :
    clausesOf (argvOf clauses) = clauses.map (List.map Token.item) := by
  have tokens : lex (argvOf clauses) =
      [Token.or].intercalate (clauses.map (List.map Token.item)) := by
    induction clauses with
    | nil => exact absurd rfl some
    | cons c clauses ih =>
        cases clauses with
        | nil =>
            have last := lex_words c []
            simpa [argvOf, lex] using last
        | cons c' clauses =>
            rw [argvOf_cons, lex_words, lex, keyword_or]
            simp only []
            rw [ih (by simp)]
            simp
  rw [clausesOf, tokens]
  refine List.splitOn_intercalate Token.or ?_ (by simpa using some)
  simp

/-- A word is the keyword it is taken for. -/
theorem word_of_keyword {word : CStr} {k : Kind} (key : keyword word = some (.item k)) :
    word = k.word := by
  unfold keyword at key
  split_ifs at key <;> cases key <;> assumption

theorem word_of_or {word : CStr} (key : keyword word = some .or) : word = orWord := by
  unfold keyword at key
  split_ifs at key <;>
    first
    | assumption
    | cases key

/-- Lexing loses nothing. -/
theorem words_lex (argv : List CStr) : (lex argv).flatMap Token.words = argv := by
  fun_induction lex argv with
  | case1 => rfl
  | case2 word k key => simp [Token.words, word_of_keyword key]
  | case3 word k key operand argv ih =>
      simp [Token.words, Item.words, ih, word_of_keyword key]
  | case4 word k key => simp [Token.words, word_of_keyword key]
  | case5 word k key operand argv ih =>
      simp [Token.words, Item.words, ih, word_of_keyword key]
  | case6 word argv k key ih => simp [Token.words, Item.words, ih, word_of_keyword key]
  | case7 word argv key ih => simp [Token.words, ih, word_of_or key]
  | case8 word argv key ih => simp [Token.words, ih]

/-- An argument list of items only is the expression of its clauses. -/
theorem argvOf_of_items {argv : List CStr} {clauses : List Clause}
    (items : clausesOf argv = clauses.map (List.map Token.item)) : argv = argvOf clauses := by
  have tokens : [Token.or].intercalate (clauses.map (List.map Token.item)) = lex argv := by
    rw [← items, clausesOf, List.intercalate_splitOn]
  have words : ([Token.or].intercalate (clauses.map (List.map Token.item))).flatMap Token.words =
      argvOf clauses := by
    clear tokens items
    induction clauses with
    | nil => rfl
    | cons c clauses ih =>
        have one : (List.map Token.item c).flatMap Token.words = Clause.words c := by
          rw [List.flatMap_map]
          rfl
        cases clauses with
        | nil => simpa [argvOf] using one
        | cons c' clauses =>
            rw [argvOf_cons, ← ih]
            simp [← one, Token.words]
  rw [← words, tokens, words_lex]

/-- An item is proper when the parser takes its operand and it is sound. -/
theorem proper_iff {i : Item} :
    i.Proper ↔ (Token.item i).readable = true ∧ (Token.item i).Sound := by
  cases i with
  | addr k operand => exact (and_iff_left trivial).symm
  | port k operand =>
      simp only [Item.Proper, Token.readable, Item.accepted, Token.Sound, decide_eq_true_eq]
      constructor
      · rintro ⟨n, reads, small⟩
        have whole := strtoul_of_numeral reads (by omega)
        refine ⟨by rw [whole], ?_, fun v same => ?_⟩
        · rintro rfl
          cases reads
        · rw [reads] at same
          cases same
          omega
      · rintro ⟨whole, nonempty, range⟩
        obtain ⟨v, reads⟩ :=
          Option.isSome_iff_exists.1 ((strtoul_whole.1 whole).resolve_left nonempty)
        obtain ⟨least, most⟩ := range v reads
        refine ⟨v.toNat, ?_, by omega⟩
        rw [reads, Int.toNat_of_nonneg least]
  | proto k => exact iff_of_true trivial ⟨rfl, trivial⟩

theorem kindsOf_items (c : Clause) : kindsOf (c.map Token.item) = c.kinds := by
  rw [kindsOf, List.filterMap_map, Clause.kinds, ← List.filterMap_eq_map]
  rfl

/-- A clause is grammatical when its tokens are. -/
theorem grammatical_iff {c : Clause} :
    c.Grammatical ↔ ¬ Refused (c.map Token.item) ∧ c ≠ [] ∧ ∀ t ∈ c.map Token.item, t.Sound := by
  have readable : (∀ t ∈ c.map Token.item, t.readable = true) ↔
      ∀ i ∈ c, (Token.item i).readable = true := List.forall_mem_map
  have sound : (∀ t ∈ c.map Token.item, t.Sound) ↔ ∀ i ∈ c, (Token.item i).Sound :=
    List.forall_mem_map
  have refused : ¬ Refused (c.map Token.item) ↔
      (∀ i ∈ c, (Token.item i).readable = true) ∧ c.Apart := by
    rw [Refused, kindsOf_items, not_or, not_not, ← readable]
    simp [Clause.Apart]
  rw [refused, sound]
  constructor
  · rintro ⟨shape, proper⟩
    obtain ⟨nonempty, apart⟩ := Clause.shape_iff.1 shape
    exact ⟨⟨fun i member => (proper_iff.1 (proper i member)).1, apart⟩, nonempty,
      fun i member => (proper_iff.1 (proper i member)).2⟩
  · rintro ⟨⟨readable, apart⟩, nonempty, sound⟩
    exact ⟨Clause.shape_iff.2 ⟨nonempty, apart⟩,
      fun i member => proper_iff.2 ⟨readable i member, sound i member⟩⟩

/-- Sound tokens are items. -/
theorem items_of_sound {c : List Token} (sound : ∀ t ∈ c, t.Sound) :
    ∃ items : Clause, c = items.map Token.item := by
  induction c with
  | nil => exact ⟨[], rfl⟩
  | cons t c ih =>
      obtain ⟨first, others⟩ := List.forall_mem_cons.1 sound
      obtain ⟨items, rfl⟩ := ih others
      cases t with
      | item i => exact ⟨i :: items, rfl⟩
      | _ => cases first

theorem clauses_of_sound {cs : List (List Token)} (sound : ∀ c ∈ cs, ∀ t ∈ c, t.Sound) :
    ∃ clauses : List Clause, cs = clauses.map (List.map Token.item) := by
  induction cs with
  | nil => exact ⟨[], rfl⟩
  | cons c cs ih =>
      obtain ⟨first, others⟩ := List.forall_mem_cons.1 sound
      obtain ⟨items, rfl⟩ := items_of_sound first
      obtain ⟨clauses, rfl⟩ := ih others
      exact ⟨items :: clauses, rfl⟩

/-- **An argument list is an expression when the parser refuses none of its clauses, and
every clause is non-empty and its tokens are sound.** -/
theorem filterExpr_iff (argv : List CStr) :
    FilterExpr argv ↔ (∀ c ∈ clausesOf argv, ¬ Refused c) ∧
      ∀ c ∈ clausesOf argv, c ≠ [] ∧ ∀ t ∈ c, t.Sound := by
  constructor
  · rintro ⟨clauses, some, grammatical, rfl⟩
    rw [clausesOf_argvOf some, List.forall_mem_map, List.forall_mem_map]
    refine ⟨fun c member => (grammatical_iff.1 (grammatical c member)).1, ?_⟩
    intro c member
    obtain ⟨-, nonempty, sound⟩ := grammatical_iff.1 (grammatical c member)
    exact ⟨by simpa using nonempty, sound⟩
  · rintro ⟨accepted, sound⟩
    obtain ⟨clauses, items⟩ := clauses_of_sound fun c member => (sound c member).2
    refine ⟨clauses, ?_, ?_, argvOf_of_items items⟩
    · rintro rfl
      exact List.splitOn_ne_nil Token.or (lex argv) items
    · rw [items] at accepted sound
      rw [List.forall_mem_map] at accepted sound
      intro c member
      obtain ⟨nonempty, all⟩ := sound c member
      exact grammatical_iff.2 ⟨accepted c member, by simpa using nonempty, all⟩

/-! ## The values in the filters -/

section

variable (host : ByteOrder) {f : ExanicIpFilter} {i : Item}

/-- A proper item puts its value into the filter. -/
theorem placed_take (proper : i.Proper) : i.PlacedIn host (f.take host i) := by
  cases i with
  | addr k operand =>
      obtain ⟨addr, found⟩ := Option.isSome_iff_exists.1 proper
      have value : (inetAton operand).getD 0 = addr := by rw [found, Option.getD_some]
      rcases k with _ | _ | _ <;>
        exact ⟨addr, found, by rw [ExanicIpFilter.take, value]; rfl⟩
  | port k operand =>
      obtain ⟨n, reads, small⟩ := proper
      have value : (strtoul operand).1 = n := by rw [strtoul_of_numeral reads (by omega)]
      rcases k with _ | _ | _ <;>
        exact ⟨n, reads, by rw [ExanicIpFilter.take, value]; rfl⟩
  | proto k => rfl

/-- Items that do not conflict with it leave it there. -/
theorem placed_keep {j : Item} (apart : i.kind.conflicts j.kind = false)
    (placed : i.PlacedIn host f) : i.PlacedIn host (f.take host j) := by
  rcases i with ⟨_ | _ | _, w⟩ | ⟨_ | _ | _, w⟩ | k <;>
    rcases j with ⟨_ | _ | _, w'⟩ | ⟨_ | _ | _, w'⟩ | k' <;>
    first
    | exact placed
    | (simp [Item.kind, Kind.conflicts, Kind.undirected, Kind.directed, Kind.isProto] at apart)

theorem placed_foldl {c : Clause} (apart : ∀ j ∈ c, i.kind.conflicts j.kind = false)
    (placed : i.PlacedIn host f) : i.PlacedIn host (c.foldl (ExanicIpFilter.take host) f) := by
  induction c generalizing f with
  | nil => exact placed
  | cons j c ih =>
      obtain ⟨first, others⟩ := List.forall_mem_cons.1 apart
      exact ih others (placed_keep host first placed)

/-- Every item of a clause has its value in the filter. -/
theorem placed_filter {c : Clause} (apart : c.Apart) (proper : ∀ i ∈ c, i.Proper) :
    ∀ i ∈ c, i.PlacedIn host (c.foldl (ExanicIpFilter.take host) f) := by
  induction c generalizing f with
  | nil =>
      intro i member
      cases member
  | cons i c ih =>
      obtain ⟨first, others⟩ := List.pairwise_cons.1 apart
      obtain ⟨this, rest⟩ := List.forall_mem_cons.1 proper
      show ∀ j ∈ i :: c, j.PlacedIn host (c.foldl (ExanicIpFilter.take host) (f.take host i))
      refine List.forall_mem_cons.2 ⟨?_, ih others rest⟩
      exact placed_foldl host (fun j member => first j.kind (List.mem_map_of_mem member))
        (placed_take host this)

end

/-! ## The parser and the grammar -/

/-- **The parser and the grammar agree on a list exactly when the parser refuses one of
its clauses, or every clause is non-empty and its tokens are sound.** -/
theorem agrees_iff (host : ByteOrder) {add : List ExanicIpFilter → ExanicIpFilter → Int}
    (succeeds : Succeeds add) (argv : List CStr) :
    Agrees host add argv ↔
      (∃ c ∈ clausesOf argv, Refused c) ∨
        ∀ c ∈ clausesOf argv, c ≠ [] ∧ ∀ t ∈ c, t.Sound := by
  have returned := applyFilters_returned host succeeds [] argv
  have expression := filterExpr_iff argv
  have places : ∀ clauses : List Clause, (∀ c ∈ clauses, c.Grammatical) → argv = argvOf clauses →
      (applyFilters host add [] argv).installed = clauses.flatMap (Clause.filters host) ∧
        ∀ c ∈ clauses, ∀ i ∈ c, i.PlacedIn host (c.filter host) := by
    rintro clauses grammatical rfl
    have accepted : ∀ c ∈ clauses, ∀ i ∈ c, i.accepted = true := fun c member i among =>
      (proper_iff.1 ((grammatical c member).proper i among)).1
    refine ⟨?_, fun c member => ?_⟩
    · rw [applyFilters_argvOf host succeeds (fun c member => (grammatical c member).shape) accepted,
        List.nil_append]
    · exact placed_filter host (Clause.shape_iff.1 (grammatical c member).shape).2
        (grammatical c member).proper
  constructor
  · intro agrees
    by_cases refused : ∃ c ∈ clausesOf argv, Refused c
    · exact .inl refused
    · have accepted : ∀ c ∈ clausesOf argv, ¬ Refused c := fun c member bad =>
        refused ⟨c, member, bad⟩
      exact .inr (expression.1 (agrees.accepts.1 (returned.2 accepted))).2
  · rintro (⟨c, member, bad⟩ | sound)
    · refine ⟨iff_of_false (fun one => returned.1 one c member bad) fun whole => ?_, places⟩
      exact (expression.1 whole).1 c member bad
    · refine ⟨?_, places⟩
      rw [returned, expression]
      exact (and_iff_left sound).symm

namespace Poles

/-- Three clauses, the last one with this port number. -/
def words (port : CStr) : List CStr :=
  [Kind.word (.proto .tcp), Kind.word (.addr .src), ['1', '.', '2', '.', '3', '.', '4'],
    Kind.word (.port .sport), ['8', '0'], orWord, Kind.word (.proto .udp), Kind.word (.addr .host),
    ['5', '.', '6', '.', '7', '.', '8'], orWord, Kind.word (.port .port), port]

theorem clausesOf_words (port : CStr) : clausesOf (words port) =
    [[.item (.proto .tcp), .item (.addr .src ['1', '.', '2', '.', '3', '.', '4']),
        .item (.port .sport ['8', '0'])],
      [.item (.proto .udp), .item (.addr .host ['5', '.', '6', '.', '7', '.', '8'])],
      [.item (.port .port port)]] := by
  rfl

end Poles

/-- The expression holds with port 53, is refused with port 5x, and goes wrong with port
65616. -/
theorem agrees_iff_clauses :
    Agrees .little (fun _ _ => 0) (Poles.words ['5', '3']) ∧
      Agrees .little (fun _ _ => 0) (Poles.words ['5', 'x']) ∧
      ¬ Agrees .little (fun _ _ => 0) (Poles.words ['6', '5', '6', '1', '6']) := by
  have condition := fun port => agrees_iff .little
    (fun _ _ => (by decide : (0 : Int) ≠ -1)) (Poles.words port)
  simp only [Poles.clausesOf_words] at condition
  refine ⟨(condition _).2 (.inr ?_), (condition _).2 (.inl ?_), fun agrees => ?_⟩
  · decide
  · decide
  · rcases (condition _).1 agrees with refused | sound
    · exact absurd refused (by decide)
    · exact absurd sound (by decide)

/-- A list cut off behind `host` is accepted, and no filter is installed. -/
theorem cut_off_accepted :
    ¬ ∀ (host : ByteOrder) (add : List ExanicIpFilter → ExanicIpFilter → Int) (argv : List CStr),
      Succeeds add → Agrees host add argv := by
  intro agrees
  have cutOff := agrees .little (fun _ _ => 0) [Kind.word (.addr .host)]
    fun _ _ => (by decide : (0 : Int) ≠ -1)
  have accepted : applyFilters .little (fun _ _ => 0) [] [Kind.word (.addr .host)] =
      { returned := true, installed := [] } := by
    rw [applyFilters]
    rfl
  have tokens : clausesOf [Kind.word (.addr .host)] = [[.cut (.addr .host)]] := by decide
  have expression := cutOff.accepts.1 (by rw [accepted])
  rw [filterExpr_iff, tokens] at expression
  exact (expression.2 _ (List.mem_singleton_self _)).2 _ (List.mem_singleton_self _)

/-- The four ways in which a list goes wrong unnoticed: `tcp or`, `tcp port`, an empty port
number, and port 65616. -/
example :
    (∀ argv ∈ [[Kind.word (.proto .tcp), orWord], [Kind.word (.proto .tcp), Kind.word (.port .port)],
        [Kind.word (.port .port), []], [Kind.word (.port .port), ['6', '5', '6', '1', '6']]],
      accepts .nothing (lex argv) = true) ∧
    strtoul ['6', '5', '6', '1', '6'] = (65616, []) ∧ UInt16.ofNat 65616 = 80 := by decide

end ExanicCapture.Filter
