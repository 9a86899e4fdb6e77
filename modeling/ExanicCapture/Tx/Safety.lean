/-
# Tx.Safety -- nothing is lost, doubled, reordered or overwritten

`Shadow` is what the handle does not record: the arena behind it, the newest feedback
in the slot, how many chunks the card has served, and each chunk as it was sent.
`Inv` ties the state of the system to it: the commands not served are the chunks
behind `served`, each still in memory as it was sent (`Holds`), and the feedback on
its way is of chunks between `shown` and `served`, in order.

`inv_run` keeps the invariant over every run.  From it: what the card sent and what
the chunks not served hold is what was handed over, in that order
(`delivered_in_order`), and the feedback is one the handle accepts
(`feedback_valid`).
-/
import ExanicCapture.Tx.Books
import ExanicCapture.Tx.System

namespace ExanicCapture.Tx

set_option autoImplicit false

open Theory Theory.Memory

/-! ## The invariant -/

/-- What the handle does not record.  `reported` are the chunks whose feedback is on
its way. -/
structure Shadow where
  arena : Arena
  request : ℕ
  shown : ℕ
  served : ℕ
  reported : List ℕ
  chunk : ℕ → TxChunk

/-- Chunk `k` lies in memory as it was sent. -/
structure Holds (r : Region) (mem : ℕ → UInt8) (start stop k : ℕ) (c : TxChunk) : Prop where
  read : readChunk mem (r.offset + start) = c
  fits : start + 8 + c.length.toNat ≤ stop
  id : c.feedbackId = .ofNat k
  slot : c.feedbackSlotIndex &&& 0x8000 = 0 → c.feedbackSlotIndex = r.feedbackSlot.toUInt16

/-- What the card has done and still has to do. -/
structure Card (r : Region) (s : Sys) (g : Shadow) : Prop where
  seen_le : g.arena.seen ≤ g.shown
  served_lt : g.served < g.arena.next
  slot : s.slots r.feedbackSlot.toUInt16 = .ofNat g.shown
  reports : s.reports = g.reported.map fun k => (r.feedbackSlot.toUInt16, UInt16.ofNat k)
  ascending : (g.shown :: g.reported).Pairwise (· < ·)
  reported_le : ∀ k ∈ g.shown :: g.reported, k ≤ g.served
  asked_le : ∀ k ∈ g.shown :: g.reported, k ≤ g.request
  unserved : ∀ k, g.served < k → k < g.arena.next →
    (g.chunk k).feedbackSlotIndex &&& 0x8000 = 0 → k ≤ g.request
  pending : g.request ∈ g.shown :: g.reported ∨
    g.served < g.request ∧ (g.chunk g.request).feedbackSlotIndex &&& 0x8000 = 0
  commands : s.commands = (List.range' (g.served + 1) (g.arena.next - 1 - g.served)).map
    fun k => r.offset + g.arena.start k
  wire : s.wire = (List.range' 1 g.served).map fun k => (g.chunk k).message
  handed : s.handed = (List.range' 1 (g.arena.next - 1)).map fun k => (g.chunk k).message
  holds : ∀ k, g.served < k → k < g.arena.next →
    Holds r s.mem (g.arena.start k) (g.arena.stop k) k (g.chunk k)

/-- A chunk of `size` bytes may be filled in and sent. -/
structure Ready (tx : ExanicTx) (a : Arena) (request size : ℕ) : Prop where
  number : a.next < a.seen + tx.queueLen
  room : a.Room (cacheAlign size)
  decided : Decided tx a request (cacheAlign size)
  header : 8 ≤ size

/-- Each store lies in the chunk that is prepared. -/
def Inside (s : Sys) (size : ℕ) (stores : List (ℕ × List UInt8)) : Prop :=
  ∀ store ∈ stores, s.chunk ≤ store.1 ∧ store.1 + store.2.length ≤ s.chunk + size

/-- The chunk that is filled in is as long as it says, or shorter. -/
def Measured (s : Sys) (size : ℕ) (mem : ℕ → UInt8) : Prop :=
  8 + (readHalfword mem (s.chunk + 4)).toNat ≤ size

/-- The program has a chunk. -/
structure Prepared (s : Sys) (a : Arena) (request : ℕ) (stores : List (ℕ × List UInt8)) :
    Prop where
  chunk : s.tx.preparedChunk = some s.tx.nextOffset
  ready : Ready s.tx a request s.tx.preparedChunkSize
  inside : Inside s s.tx.preparedChunkSize stores
  measured : Measured s s.tx.preparedChunkSize (copyAll s.mem stores)

/-- The stores make the chunk that is to be sent. -/
structure Sending (s : Sys) (a : Arena) (request : ℕ) (stores : List (ℕ × List UInt8))
    (size : ℕ) (message : Message) : Prop where
  ready : Ready s.tx a request size
  inside : Inside s size stores
  measured : Measured s size (copyAll s.mem stores)
  id : (readChunk (copyAll s.mem stores) s.chunk).feedbackId = s.tx.nextSeq
  slot : (readChunk (copyAll s.mem stores) s.chunk).feedbackSlotIndex = s.tx.feedbackSlotIndex
  message : (readChunk (copyAll s.mem stores) s.chunk).message = message

/-- What holds where the program is. -/
def Doing (s : Sys) (a : Arena) (request : ℕ) : Prop :=
  match s.pc with
  | .idle => s.tx.preparedChunk.isSome → Prepared s a request []
  | .sequence _ => s.tx.preparedChunk = none
  | .space _ => s.tx.preparedChunk = none ∧ a.next < a.seen + s.tx.queueLen
  | .filling stores none => Prepared s a request stores
  | .filling stores (some (size, message)) => Sending s a request stores size message

/-- The state of the system with its shadow. -/
structure Inv (r : Region) (s : Sys) (g : Shadow) : Prop where
  books : Books r s.tx g.arena g.request
  card : Card r s g
  doing : Doing s g.arena g.request
  valid : Error.invalidFeedback ∉ s.errors
  roomy : Error.tooLarge ∉ s.errors → Roomy s.tx g.arena g.request

/-! ## Changes of memory -/

section Memory

variable {r : Region} {s : Sys} {g : Shadow} {a : Arena} {q : ℕ} {mem : ℕ → UInt8}

theorem Books.chunk_eq (books : Books r s.tx a q) : s.chunk = r.offset + a.cursor := by
  rw [Sys.chunk, books.bufferOffset, books.nextOffset]

/-- A chunk lies in memory as it was sent until its own bytes change. -/
theorem Holds.congr {mem' : ℕ → UInt8} {start stop k : ℕ} {c : TxChunk}
    (holds : Holds r mem start stop k c)
    (same : ∀ i, r.offset + start ≤ i → i < r.offset + stop → mem' i = mem i) :
    Holds r mem' start stop k c := by
  have fits := holds.fits
  refine { holds with read := ?_ }
  rw [readChunk_congr, holds.read]
  rw [holds.read]
  exact fun i low high => same i low (by omega)

/-- **A store into the chunk that is prepared spares the chunks not served.** -/
theorem Card.store (card : Card r s g) (books : Books r s.tx g.arena q) {size : ℕ}
    (ready : Ready s.tx g.arena q size) {at' : ℕ} {block : List UInt8} (low : s.chunk ≤ at')
    (high : at' + block.length ≤ s.chunk + size) :
    ∀ k, g.served < k → k < g.arena.next →
      Holds r (copy s.mem at' block) (g.arena.start k) (g.arena.stop k) k (g.chunk k) := by
  intro k unserved sent
  have seen : g.arena.seen < k :=
    lt_of_le_of_lt (card.seen_le.trans (card.reported_le _ List.mem_cons_self)) unserved
  have aligned := le_cacheAlign size
  have place := books.chunk_eq
  refine (card.holds k unserved sent).congr ?_
  intro i above below
  rcases books.wf.apart ready.room seen sent with before | behind
  · exact copy_of_lt _ _ (by omega)
  · exact copy_of_ge _ (by omega)

/-- The region of the handle is left alone. -/
def Spared (r : Region) (mem mem' : ℕ → UInt8) : Prop :=
  ∀ i, r.offset ≤ i → i < r.offset + r.size → mem' i = mem i

theorem Card.spared (card : Card r s g) (books : Books r s.tx g.arena q)
    (spared : Spared r s.mem mem) :
    ∀ k, g.served < k → k < g.arena.next →
      Holds r mem (g.arena.start k) (g.arena.stop k) k (g.chunk k) := by
  intro k unserved sent
  have seen : g.arena.seen ≤ k :=
    (card.seen_le.trans (card.reported_le _ List.mem_cons_self)).trans unserved.le
  have inside := books.wf.stop_le seen sent
  rw [books.size] at inside
  exact (card.holds k unserved sent).congr fun i low high => spared i (by omega) (by omega)

/-- The chunk that is prepared is part of the region. -/
theorem Ready.spared (books : Books r s.tx a q) {size : ℕ} (ready : Ready s.tx a q size)
    (spared : Spared r s.mem mem) (stores : List (ℕ × List UInt8)) :
    ∀ i, s.chunk ≤ i → i < s.chunk + size → copyAll mem stores i = copyAll s.mem stores i := by
  intro i low high
  have aligned := le_cacheAlign size
  have place := books.chunk_eq
  have inside := books.wf.room_le ready.room
  rw [books.size] at inside
  exact copyAll_congr (spared i (by omega) (by omega)) stores

theorem Prepared.spared {stores : List (ℕ × List UInt8)} (prepared : Prepared s a q stores)
    (books : Books r s.tx a q) (spared : Spared r s.mem mem) (slots : UInt16 → UInt16) :
    Prepared { s with mem, slots } a q stores := by
  have same := prepared.ready.spared books spared stores
  have header := prepared.ready.header
  refine { prepared with measured := ?_ }
  show 8 + (readHalfword (copyAll mem stores) (s.chunk + 4)).toNat ≤ _
  rw [readHalfword_congr fun i low high => same i (by omega) (by omega)]
  exact prepared.measured

theorem Sending.spared {stores : List (ℕ × List UInt8)} {size : ℕ} {message : Message}
    (sending : Sending s a q stores size message) (books : Books r s.tx a q)
    (spared : Spared r s.mem mem) (slots : UInt16 → UInt16) :
    Sending { s with mem, slots } a q stores size message := by
  have same := sending.ready.spared books spared stores
  have measured := sending.measured
  have read : readChunk (copyAll mem stores) s.chunk = readChunk (copyAll s.mem stores) s.chunk :=
    readChunk_congr fun i low high => same i low (lt_of_lt_of_le high (by
      rw [Nat.add_assoc]
      exact Nat.add_le_add_left measured _))
  refine { sending with measured := ?_, id := ?_, slot := ?_, message := ?_ }
  · show 8 + (readChunk (copyAll mem stores) s.chunk).length.toNat ≤ _
    rw [read]
    exact measured
  · exact (congrArg TxChunk.feedbackId read).trans sending.id
  · exact (congrArg TxChunk.feedbackSlotIndex read).trans sending.slot
  · exact (congrArg TxChunk.message read).trans sending.message

end Memory

/-! ## The program -/

section Program

variable {r : Region} {s : Sys} {g : Shadow}

/-- The card does not see the handle, nor where the program is. -/
theorem Card.program {s' : Sys} (card : Card r s g) (slots : s'.slots = s.slots)
    (mem : s'.mem = s.mem) (commands : s'.commands = s.commands) (reports : s'.reports = s.reports)
    (handed : s'.handed = s.handed) (wire : s'.wire = s.wire) : Card r s' g where
  seen_le := card.seen_le
  served_lt := card.served_lt
  slot := slots ▸ card.slot
  reports := reports ▸ card.reports
  ascending := card.ascending
  reported_le := card.reported_le
  asked_le := card.asked_le
  unserved := card.unserved
  pending := card.pending
  commands := commands ▸ card.commands
  wire := wire ▸ card.wire
  handed := handed ▸ card.handed
  holds := mem ▸ card.holds

/-- The newest feedback is of a chunk that asked for it. -/
theorem Card.shown_le (card : Card r s g) : g.shown ≤ g.request :=
  card.asked_le _ List.mem_cons_self

theorem Inv.shown_lt (inv : Inv r s g) : g.shown < g.arena.next :=
  lt_of_le_of_lt inv.card.shown_le inv.books.request_lt

/-- **The feedback in the slot is accepted**, and nothing but `feedback_seq` changes. -/
theorem Inv.updateFeedback_eq (inv : Inv r s g) :
    s.updateFeedback = { s with tx := { s.tx with feedbackSeq := .ofNat g.shown } } := by
  have slot : s.slots s.slot = .ofNat g.shown := by
    rw [Sys.slot, inv.books.feedbackSlot]
    exact inv.card.slot
  have update := inv.books.exanicUpdateTxFeedback inv.card.seen_le inv.shown_lt
  simp only [Sys.updateFeedback, slot, update, if_true]
  rw [← slot, Function.update_eq_self]

/-- What the update does to the arena. -/
def Shadow.updated (g : Shadow) : Shadow := { g with arena := g.arena.free g.shown }

theorem Inv.updateFeedback (inv : Inv r s g)
    (doing : Doing s.updateFeedback g.updated.arena g.request) :
    Inv r s.updateFeedback g.updated := by
  have valid := inv.valid
  have roomy := inv.roomy
  rw [inv.updateFeedback_eq] at doing ⊢
  exact
    { books := inv.books.free inv.card.seen_le inv.card.shown_le
      card := { inv.card with seen_le := le_rfl }
      doing
      valid
      roomy }

theorem not_mem_fail {error other : Error} {errors : List Error} (absent : other ∉ errors)
    (ne : error ≠ other) : other ∉ errors ++ [error] := by
  intro member
  rcases List.mem_append.1 member with old | new
  · exact absent old
  · exact ne (List.mem_singleton.1 new).symm

theorem Inv.call (inv : Inv r s g) (idle : s.pc = .idle) (q : Request) : Inv r (s.call q) g := by
  have doing := inv.doing
  simp only [Doing, idle] at doing
  unfold Sys.call
  by_cases prepared : s.tx.preparedChunk.isSome
  · rw [if_pos prepared]
    exact
      { books := inv.books
        card := inv.card.program rfl rfl rfl rfl rfl rfl
        doing := fun prepared => { doing prepared with }
        valid := not_mem_fail inv.valid (by decide)
        roomy := fun absent => inv.roomy fun old => absent (List.mem_append_left _ old) }
  · rw [if_neg prepared]
    exact
      { books := inv.books
        card := inv.card.program rfl rfl rfl rfl rfl rfl
        doing := Option.not_isSome_iff_eq_none.1 prepared
        valid := inv.valid
        roomy := inv.roomy }

/-- The first loop. -/
theorem Inv.sequence (inv : Inv r s g) {q : Request} (pc : s.pc = .sequence q) :
    ∃ g', Inv r s.host g' := by
  have doing := inv.doing
  simp only [Doing, pc] at doing
  rw [Sys.host_sequence pc]
  by_cases out : s.tx.outOfSequenceNumbers
  · rw [if_pos out]
    refine ⟨g.updated, inv.updateFeedback ?_⟩
    rw [inv.updateFeedback_eq]
    simpa only [Doing, pc] using doing
  · rw [if_neg out]
    rw [inv.books.outOfSequenceNumbers_iff] at out
    exact ⟨g, inv.books, inv.card.program rfl rfl rfl rfl rfl rfl,
      ⟨doing, Nat.lt_of_not_le out⟩, inv.valid, inv.roomy⟩

theorem Inv.beginChunk (inv : Inv r s g) (q : Request)
    (ready : Ready s.tx g.arena g.request q.chunkSize) : Inv r (s.beginChunk q) g where
  books := { inv.books with }
  card := inv.card.program rfl rfl rfl rfl rfl rfl
  doing := by
    have length := Nat.mod_le q.length (2 ^ 16)
    have size : q.chunkSize = 8 + q.length := rfl
    refine ⟨rfl, { ready with }, q.stores_inside s.chunk, ?_⟩
    show 8 + (readHalfword (copyAll s.mem (q.stores s.chunk)) (s.chunk + 4)).toNat ≤ q.chunkSize
    rw [q.read_length, UInt16.toNat_ofNat']
    omega
  valid := inv.valid
  roomy := inv.roomy

/-- The stores of a call that sends make the chunk it hands over. -/
theorem Sending.of_stores {stores : List (ℕ × List UInt8)} {size : ℕ} {message : Message}
    {a : Arena} {request : ℕ} (ready : Ready s.tx a request size) (inside : Inside s size stores)
    (measured : Measured s size (copyAll s.mem stores))
    (read : (readChunk (copyAll s.mem stores) s.chunk).message = message) :
    Sending s a request (stores ++ s.stamp) size message := by
  have stamped := readChunk_feedbackStores (copyAll s.mem stores) s.chunk s.tx.nextSeq
    s.tx.feedbackSlotIndex
  rw [← copyAll_append] at stamped
  refine
    { ready
      inside := ?_
      measured := ?_
      id := congrArg TxChunk.feedbackId stamped
      slot := congrArg TxChunk.feedbackSlotIndex stamped
      message := (congrArg TxChunk.message stamped).trans read }
  · intro store member
    rcases List.mem_append.1 member with own | stamp
    · exact inside store own
    · exact feedbackStores_inside ready.header store stamp
  · show 8 + (readChunk _ s.chunk).length.toNat ≤ size
    exact (congrArg (8 + ·.length.toNat) stamped).trans_le measured

theorem Inv.fillChunk (inv : Inv r s g) (q : Request) (sends : q.begins = false)
    (ready : Ready s.tx g.arena g.request q.chunkSize) : Inv r (s.fillChunk q) g where
  books := inv.books
  card := inv.card.program rfl rfl rfl rfl rfl rfl
  doing := by
    have length := Nat.mod_le q.length (2 ^ 16)
    have size : q.chunkSize = 8 + q.length := rfl
    refine { Sending.of_stores ready (q.stores_inside s.chunk) ?_
      (q.read_message s.mem s.chunk sends) with }
    show 8 + (readHalfword (copyAll s.mem (q.stores s.chunk)) (s.chunk + 4)).toNat ≤ q.chunkSize
    rw [q.read_length, UInt16.toNat_ofNat']
    omega
  valid := inv.valid
  roomy := inv.roomy

/-- A chunk was found: the call returns, or the stores begin. -/
theorem Inv.prepared (inv : Inv r s g) (q : Request) (none : s.tx.preparedChunk = none)
    (waiting : s.pc = .space q) (number : g.arena.next < g.arena.seen + s.tx.queueLen)
    (room : g.arena.Room (cacheAlign q.chunkSize)) : Inv r (s.prepared q) g := by
  have asked : Inv r (s.asked q) g :=
    { books := { inv.books with }
      card := inv.card.program rfl rfl rfl rfl rfl rfl
      doing := by
        simp only [Doing, Sys.asked, waiting]
        exact ⟨none, number⟩
      valid := inv.valid
      roomy := inv.roomy }
  have ready : Ready (s.asked q).tx g.arena g.request q.chunkSize :=
    ⟨number, room, inv.books.decided room, Nat.le_add_right _ _⟩
  unfold Sys.prepared
  by_cases warm : q.warm
  · simp only [warm, if_true]
    exact
      { books := asked.books
        card := asked.card.program rfl rfl rfl rfl rfl rfl
        doing := by
          intro some
          have gone : (s.asked q).tx.preparedChunk = Option.none := none
          simp only [gone, Option.isSome_none, Bool.false_eq_true] at some
        valid := asked.valid
        roomy := asked.roomy }
  · by_cases begins : q.begins
    · simp only [warm, begins, if_true, Bool.false_eq_true, if_false]
      exact asked.beginChunk q ready
    · simp only [warm, begins, Bool.false_eq_true, if_false]
      exact asked.fillChunk q (Bool.eq_false_of_not_eq_true begins) ready

/-- A look that finds nothing to refuse keeps the invariant. -/
theorem Inv.looked (inv : Inv r s g) {q : Request} (pc : s.pc = .space q)
    (accepted : (s.tx.look (cacheAlign q.chunkSize)).2 ≠ .tooLarge) :
    ∃ b, Inv r (s.looked q) { g with arena := b } ∧
      b.next < b.seen + (s.looked q).tx.queueLen ∧
      ((s.tx.look (cacheAlign q.chunkSize)).2 = .available → b.Room (cacheAlign q.chunkSize)) := by
  have doing := inv.doing
  simp only [Doing, pc] at doing
  obtain ⟨none, number⟩ := doing
  obtain ⟨b, same, books, room, roomy⟩ := inv.books.look (cacheAlign q.chunkSize)
  have number' : b.next < b.seen + (s.looked q).tx.queueLen := by
    rw [Sys.looked, books.queueLen, ← inv.books.queueLen]
    rcases same with rfl | rfl <;> exact number
  refine ⟨b, ?_, number', room⟩
  exact
    { books
      card := by rcases same with rfl | rfl <;> exact { inv.card with }
      doing := by
        simp only [Doing, Sys.looked, pc]
        exact ⟨(s.tx.look_preparedChunk _).trans none, number'⟩
      valid := inv.valid
      roomy := fun absent => roomy accepted (inv.roomy absent) }

/-- A chunk that is too large is refused; a new lap may have been started for it. -/
theorem Inv.refused (inv : Inv r s g) {q : Request} (pc : s.pc = .space q) :
    ∃ g', Inv r ((s.looked q).fail .tooLarge) g' := by
  have doing := inv.doing
  simp only [Doing, pc] at doing
  obtain ⟨b, same, books, -, -⟩ := inv.books.look (cacheAlign q.chunkSize)
  have card : Card r (s.looked q) { g with arena := b } := by
    rcases same with rfl | rfl <;> exact { inv.card with }
  refine ⟨{ g with arena := b }, ?_⟩
  exact
    { books
      card := card.program rfl rfl rfl rfl rfl rfl
      doing := by
        intro some
        have none := (s.tx.look_preparedChunk (cacheAlign q.chunkSize)).trans doing.1
        simp only [Sys.fail, Sys.looked, none, Option.isSome_none, Bool.false_eq_true] at some
      valid := not_mem_fail inv.valid (by decide)
      roomy := fun absent => absurd (List.mem_append_right _ (List.mem_singleton_self _)) absent }

/-- The second loop. -/
theorem Inv.space (inv : Inv r s g) {q : Request} (pc : s.pc = .space q) :
    ∃ g', Inv r s.host g' := by
  have doing := inv.doing
  simp only [Doing, pc] at doing
  have none : (s.looked q).tx.preparedChunk = none :=
    (s.tx.look_preparedChunk _).trans doing.1
  rw [Sys.host_space pc, Sys.lookForSpace]
  cases found : (s.tx.look (cacheAlign q.chunkSize)).2 with
  | available =>
      obtain ⟨b, looked, number, room⟩ := inv.looked pc (by rw [found]; decide)
      exact ⟨_, looked.prepared q none pc number (room found)⟩
  | tooLarge => exact inv.refused pc
  | wait =>
      obtain ⟨b, looked, number, -⟩ := inv.looked pc (by rw [found]; decide)
      refine ⟨_, looked.updateFeedback ?_⟩
      rw [looked.updateFeedback_eq]
      simp only [Doing, Sys.looked, pc]
      exact ⟨none, lt_of_lt_of_le number (Nat.add_le_add_right looked.card.seen_le _)⟩

/-- One store of a call. -/
theorem Inv.store (inv : Inv r s g) {store : ℕ × List UInt8} {stores : List (ℕ × List UInt8)}
    {send : Option (ℕ × Message)} (pc : s.pc = .filling (store :: stores) send) :
    Inv r { s with mem := copy s.mem store.1 store.2, pc := .filling stores send } g := by
  have doing := inv.doing
  cases send with
  | none =>
      simp only [Doing, pc] at doing
      have here := doing.inside store List.mem_cons_self
      exact
        { books := inv.books
          card := { inv.card with holds := inv.card.store inv.books doing.ready here.1 here.2 }
          doing :=
            { doing with inside := fun later member => doing.inside later (.tail _ member) }
          valid := inv.valid
          roomy := inv.roomy }
  | some send =>
      simp only [Doing, pc] at doing
      have here := doing.inside store List.mem_cons_self
      exact
        { books := inv.books
          card := { inv.card with holds := inv.card.store inv.books doing.ready here.1 here.2 }
          doing :=
            { doing with inside := fun later member => doing.inside later (.tail _ member) }
          valid := inv.valid
          roomy := inv.roomy }

/-- What the shadow gains with a chunk that is sent. -/
def Shadow.posted (g : Shadow) (asks : Bool) (size : ℕ) (c : TxChunk) : Shadow :=
  { g with
    arena := g.arena.place (cacheAlign size)
    request := if asks then g.arena.next else g.request
    chunk := Function.update g.chunk g.arena.next c }

section Post

variable {size : ℕ} {message : Message}

theorem Shadow.posted_chunk_next (asks : Bool) (c : TxChunk) :
    (g.posted asks size c).chunk g.arena.next = c :=
  Function.update_self _ _ _

theorem Shadow.posted_chunk_of_lt (asks : Bool) (c : TxChunk) {k : ℕ} (before : k < g.arena.next) :
    (g.posted asks size c).chunk k = g.chunk k :=
  Function.update_of_ne before.ne _ _

theorem Inv.request_le_posted (inv : Inv r s g) (asks : Bool) (c : TxChunk) :
    g.request ≤ (g.posted asks size c).request := by
  show g.request ≤ if asks then g.arena.next else g.request
  split
  · exact inv.books.request_lt.le
  · exact le_rfl

/-- The chunk asks for feedback if the handle did. -/
theorem Sending.asks_iff (sending : Sending s g.arena g.request [] size message) :
    (readChunk s.mem s.chunk).feedbackSlotIndex &&& 0x8000 = 0 ↔ s.tx.needFeedback = true := by
  have slot : (readChunk s.mem s.chunk).feedbackSlotIndex = s.tx.feedbackSlotIndex := sending.slot
  rw [slot, s.tx.feedbackSlotIndex_asks_iff]

theorem Inv.post_unserved (inv : Inv r s g)
    (sending : Sending s g.arena g.request [] size message) {k : ℕ} (unserved : g.served < k)
    (before : k < g.arena.next + 1)
    (asks : ((g.posted s.tx.needFeedback size (readChunk s.mem s.chunk)).chunk k).feedbackSlotIndex
      &&& 0x8000 = 0) :
    k ≤ (g.posted s.tx.needFeedback size (readChunk s.mem s.chunk)).request := by
  rcases Nat.lt_succ_iff_lt_or_eq.1 before with old | rfl
  · rw [Shadow.posted_chunk_of_lt _ _ old] at asks
    exact (inv.card.unserved k unserved old asks).trans (inv.request_le_posted _ _)
  · rw [Shadow.posted_chunk_next, sending.asks_iff] at asks
    show g.arena.next ≤ if s.tx.needFeedback then g.arena.next else g.request
    rw [asks, if_pos rfl]

/-- The feedback that is asked for is still to come. -/
theorem Inv.post_pending (inv : Inv r s g)
    (sending : Sending s g.arena g.request [] size message) :
    let g' := g.posted s.tx.needFeedback size (readChunk s.mem s.chunk)
    g'.request ∈ g.shown :: g.reported ∨
      g.served < g'.request ∧ (g'.chunk g'.request).feedbackSlotIndex &&& 0x8000 = 0 := by
  intro g'
  cases asks : s.tx.needFeedback with
  | true =>
      have request : g'.request = g.arena.next := by
        show (if s.tx.needFeedback then g.arena.next else g.request) = g.arena.next
        rw [asks, if_pos rfl]
      rw [request, Shadow.posted_chunk_next, sending.asks_iff]
      exact .inr ⟨inv.card.served_lt, asks⟩
  | false =>
      have request : g'.request = g.request := by
        show (if s.tx.needFeedback then g.arena.next else g.request) = g.request
        rw [asks, if_neg (by decide)]
      rw [request, Shadow.posted_chunk_of_lt _ _ inv.books.request_lt]
      exact inv.card.pending

/-- The command is the place of the chunk. -/
theorem Inv.post_commands (inv : Inv r s g) (size : ℕ) :
    s.commands ++ [s.chunk] =
      (List.range' (g.served + 1) (g.arena.next + 1 - 1 - g.served)).map
        fun k => r.offset + (g.arena.place (cacheAlign size)).start k := by
  have served := inv.card.served_lt
  rw [show g.arena.next + 1 - 1 - g.served = g.arena.next - 1 - g.served + 1 by omega,
    List.range'_1_concat, List.map_append, List.map_singleton, inv.card.commands]
  congr 1
  · refine List.map_congr_left fun k member => ?_
    have := (List.mem_range'_1.1 member).2
    rw [Arena.WellFormed.place_start_of_ne (by omega)]
  · rw [show g.served + 1 + (g.arena.next - 1 - g.served) = g.arena.next by omega,
      Arena.WellFormed.place_start_next]
    exact congrArg (fun at' => [at']) inv.books.chunk_eq

/-- The messages of the chunks that were posted before are what they were. -/
theorem Shadow.posted_messages (asks : Bool) (c : TxChunk) {n : ℕ} (old : n < g.arena.next) :
    ((List.range' 1 n).map fun k => ((g.posted asks size c).chunk k).message) =
      (List.range' 1 n).map fun k => (g.chunk k).message := by
  refine List.map_congr_left fun k member => ?_
  have := (List.mem_range'_1.1 member).2
  rw [Shadow.posted_chunk_of_lt _ _ (by omega)]

theorem Inv.post_wire (inv : Inv r s g) (asks : Bool) (c : TxChunk) :
    s.wire = (List.range' 1 g.served).map fun k => ((g.posted asks size c).chunk k).message := by
  rw [Shadow.posted_messages _ _ inv.card.served_lt, inv.card.wire]

/-- The message handed over last is that of the chunk. -/
theorem Inv.post_handed (inv : Inv r s g)
    (sending : Sending s g.arena g.request [] size message) (asks : Bool) :
    s.handed ++ [message] = (List.range' 1 (g.arena.next + 1 - 1)).map fun k =>
      ((g.posted asks size (readChunk s.mem s.chunk)).chunk k).message := by
  have served := inv.card.served_lt
  rw [show g.arena.next + 1 - 1 = g.arena.next - 1 + 1 by omega, List.range'_1_concat,
    List.map_append, List.map_singleton, Shadow.posted_messages _ _ (by omega), inv.card.handed,
    show 1 + (g.arena.next - 1) = g.arena.next by omega, Shadow.posted_chunk_next]
  exact congrArg (fun sent => _ ++ [sent]) sending.message.symm

/-- The chunk lies where the command says, and the others where they were. -/
theorem Inv.post_holds (inv : Inv r s g)
    (sending : Sending s g.arena g.request [] size message) (asks : Bool) {k : ℕ}
    (unserved : g.served < k) (before : k < g.arena.next + 1) :
    Holds r s.mem ((g.arena.place (cacheAlign size)).start k)
      ((g.arena.place (cacheAlign size)).stop k) k
      ((g.posted asks size (readChunk s.mem s.chunk)).chunk k) := by
  rcases Nat.lt_succ_iff_lt_or_eq.1 before with old | rfl
  · rw [Arena.WellFormed.place_start_of_ne old.ne, Arena.WellFormed.place_stop_of_ne old.ne,
      Shadow.posted_chunk_of_lt _ _ old]
    exact inv.card.holds k unserved old
  · rw [Arena.WellFormed.place_start_next, Arena.WellFormed.place_stop_next,
      Shadow.posted_chunk_next]
    have aligned := le_cacheAlign size
    have measured : 8 + (readChunk s.mem s.chunk).length.toNat ≤ size := sending.measured
    have slot : (readChunk s.mem s.chunk).feedbackSlotIndex = s.tx.feedbackSlotIndex :=
      sending.slot
    exact
      { read := by rw [inv.books.chunk_eq]
        fits := by omega
        id := sending.id.trans inv.books.nextSeq
        slot := by
          intro asks
          rw [slot] at asks ⊢
          rw [s.tx.feedbackSlotIndex_asks asks, inv.books.feedbackSlot] }

/-- **The command is written.** -/
theorem Inv.post (inv : Inv r s g) (pc : s.pc = .filling [] (some (size, message))) :
    Inv r (s.post size message) (g.posted s.tx.needFeedback size (readChunk s.mem s.chunk)) := by
  have sending := inv.doing
  simp only [Doing, pc] at sending
  have ready := sending.ready
  have header := ready.header
  have aligned := le_cacheAlign size
  exact
    { books := { inv.books.sent (by omega) ready.number ready.room ready.decided with }
      card :=
        { inv.card with
          served_lt := Nat.lt_succ_of_lt inv.card.served_lt
          asked_le := fun k member => (inv.card.asked_le k member).trans (inv.request_le_posted _ _)
          unserved := fun k => inv.post_unserved sending
          pending := inv.post_pending sending
          commands := inv.post_commands size
          wire := inv.post_wire _ _
          handed := inv.post_handed sending _
          holds := fun k => inv.post_holds sending _ }
      doing := by
        intro some
        simp only [Sys.post, Option.isSome_none, Bool.false_eq_true] at some
      valid := inv.valid
      roomy := fun _ earlier => absurd earlier (inv.books.lap_le_request ready.decided).not_gt }

end Post

/-- **What a call does next keeps the invariant.** -/
theorem Inv.host (inv : Inv r s g) : ∃ g', Inv r s.host g' := by
  cases pc : s.pc with
  | idle =>
      refine ⟨g, ?_⟩
      simpa only [Sys.host, pc] using inv
  | sequence q => exact inv.sequence pc
  | space q => exact inv.space pc
  | filling stores send =>
      cases stores with
      | cons store stores =>
          refine ⟨g, ?_⟩
          simpa only [Sys.host, pc] using inv.store pc
      | nil =>
          cases send with
          | none =>
              have doing := inv.doing
              simp only [Doing, pc] at doing
              refine ⟨g, ?_⟩
              simp only [Sys.host, pc]
              exact
                { books := inv.books
                  card := inv.card.program rfl rfl rfl rfl rfl rfl
                  doing := fun _ => { doing with }
                  valid := inv.valid
                  roomy := inv.roomy }
          | some send =>
              refine ⟨g.posted s.tx.needFeedback send.1 (readChunk s.mem s.chunk), ?_⟩
              simpa only [Sys.host, pc] using inv.post pc

end Program

/-! ## The caller -/

section Caller

variable {r : Region} {s : Sys} {g : Shadow}

theorem Inv.idle_prepared (inv : Inv r s g) (idle : s.pc = .idle) {chunk : ℕ}
    (some : s.tx.preparedChunk = some chunk) : Prepared s g.arena g.request [] := by
  have doing := inv.doing
  simp only [Doing, idle] at doing
  exact doing (Option.isSome_iff_exists.2 ⟨chunk, some⟩)

/-- The caller stores into the payload of the chunk it has begun. -/
theorem Inv.callerStore (inv : Inv r s g) (idle : s.pc = .idle) {chunk offset : ℕ}
    {block : List UInt8} (some : s.tx.preparedChunk = some chunk) (behind : sizeofTxChunk ≤ offset)
    (inside : offset + block.length ≤ s.tx.preparedChunkSize) :
    Inv r { s with mem := copy s.mem (s.tx.bufferOffset + chunk + offset) block } g := by
  have prepared := inv.idle_prepared idle some
  have same : s.tx.bufferOffset + chunk = s.chunk := by
    rw [prepared.chunk] at some
    rw [Sys.chunk, Option.some.inj some]
  have behind : 8 ≤ offset := behind
  rw [same]
  refine
    { books := inv.books
      card := { inv.card with holds := inv.card.store inv.books prepared.ready (by omega) (by omega) }
      doing := ?_
      valid := inv.valid
      roomy := inv.roomy }
  simp only [Doing, idle]
  refine fun _ => { prepared with measured := ?_ }
  show 8 + (readHalfword (copy s.mem (s.chunk + offset) block) (s.chunk + 4)).toNat ≤ _
  rw [readHalfword_copy_apart _ (Or.inl (by omega))]
  exact prepared.measured

/-- The caller sends the chunk it has begun. -/
theorem Inv.finish (inv : Inv r s g) (idle : s.pc = .idle) {e : End} {chunk : ℕ}
    (some : s.tx.preparedChunk = some chunk)
    (smaller : e.chunkSize s.tx.preparedChunkSize ≤ s.tx.preparedChunkSize) :
    Inv r (s.finish e chunk) g := by
  have prepared := inv.idle_prepared idle some
  have same : s.tx.bufferOffset + chunk = s.chunk := by
    rw [prepared.chunk] at some
    rw [Sys.chunk, Option.some.inj some]
  have header := e.chunkSize_ge prepared.ready.header
  have ready : Ready s.tx g.arena g.request (e.chunkSize s.tx.preparedChunkSize) :=
    ⟨prepared.ready.number, prepared.ready.room.mono (cacheAlign_mono smaller),
      prepared.ready.decided.mono (cacheAlign_mono smaller), header⟩
  have sending := Sending.of_stores (s := s) ready
    (fun store member => by have := e.stores_inside s.chunk store member; omega)
    (e.read_length s.mem s.chunk prepared.measured) rfl
  unfold Sys.finish
  rw [same]
  exact
    { books := inv.books
      card := inv.card.program rfl rfl rfl rfl rfl rfl
      doing := { sending with }
      valid := inv.valid
      roomy := inv.roomy }

theorem Inv.abort (inv : Inv r s g) (idle : s.pc = .idle) : Inv r s.exanicAbortTransmitFrame g where
  books := { inv.books with }
  card := inv.card.program rfl rfl rfl rfl rfl rfl
  doing := by
    simp only [Doing, Sys.exanicAbortTransmitFrame, idle]
    intro some
    cases some
  valid := inv.valid
  roomy := inv.roomy

end Caller

/-! ## The card -/

section Card

variable {r : Region} {s : Sys} {g : Shadow}

/-- What the program sees is unchanged. -/
theorem Doing.card {s' : Sys} {a : Arena} {q : ℕ} (doing : Doing s a q) (tx : s'.tx = s.tx)
    (mem : s'.mem = s.mem) (pc : s'.pc = s.pc) : Doing s' a q := by
  obtain ⟨tx', mem', slots', commands', reports', pc', errors', handed', wire'⟩ := s'
  simp only at tx mem pc
  subst tx mem pc
  cases here : s.pc with
  | idle =>
      simp only [Doing, here] at doing ⊢
      exact fun prepared => { doing prepared with }
  | sequence q =>
      simp only [Doing, here] at doing ⊢
      exact doing
  | space q =>
      simp only [Doing, here] at doing ⊢
      exact doing
  | filling stores send =>
      cases send <;> simp only [Doing, here] at doing ⊢ <;> exact { doing with }

/-- What the shadow gains with a chunk that is served. -/
def Shadow.serve (g : Shadow) : Shadow :=
  { g with
    served := g.served + 1
    reported :=
      if (g.chunk (g.served + 1)).feedbackSlotIndex &&& 0x8000 = 0 then
        g.reported ++ [g.served + 1]
      else g.reported }

/-- The oldest command is the chunk behind the last one served. -/
theorem Card.next_command (card : Card r s g) {command : ℕ} {commands : List ℕ}
    (next : s.commands = command :: commands) :
    g.served + 1 < g.arena.next ∧ command = r.offset + g.arena.start (g.served + 1) ∧
      commands = (List.range' (g.served + 2) (g.arena.next - 1 - (g.served + 1))).map
        fun k => r.offset + g.arena.start k := by
  have served := card.served_lt
  have listed := card.commands
  rw [next] at listed
  cases left : g.arena.next - 1 - g.served with
  | zero =>
      rw [left] at listed
      cases listed
  | succ left' =>
      rw [left, List.range'_succ, List.map_cons, List.cons.injEq] at listed
      refine ⟨by omega, listed.1, ?_⟩
      rw [listed.2, show g.arena.next - 1 - (g.served + 1) = left' by omega]

/-- The next chunk asks for feedback. -/
def Shadow.AsksNext (g : Shadow) : Prop :=
  (g.chunk (g.served + 1)).feedbackSlotIndex &&& 0x8000 = 0

theorem Shadow.serve_reported_asks (asks : g.AsksNext) :
    g.serve.reported = g.reported ++ [g.served + 1] :=
  if_pos asks

theorem Shadow.serve_reported_silent (silent : ¬ g.AsksNext) : g.serve.reported = g.reported :=
  if_neg silent

/-- The feedback of the chunk is on its way if it asks for one. -/
theorem Shadow.mem_serve {k : ℕ} : k ∈ g.shown :: g.serve.reported ↔
    k ∈ g.shown :: g.reported ∨ k = g.served + 1 ∧ g.AsksNext := by
  by_cases asks : g.AsksNext
  · rw [Shadow.serve_reported_asks asks, ← List.cons_append, List.mem_append, List.mem_singleton,
      and_iff_left asks]
  · rw [Shadow.serve_reported_silent asks]
    exact (or_iff_left fun served => asks served.2).symm

theorem Card.serve_reports (card : Card r s g) {command : ℕ}
    (read : readChunk s.mem command = g.chunk (g.served + 1)) (served : g.served + 1 < g.arena.next)
    (commands : List ℕ) :
    (s.serve command commands).reports =
      g.serve.reported.map fun k => (r.feedbackSlot.toUInt16, UInt16.ofNat k) := by
  have holds := card.holds (g.served + 1) (by omega) served
  show (if (readChunk s.mem command).feedbackSlotIndex &&& 0x8000 = 0 then _ else _) = _
  rw [read, card.reports]
  split
  next asks =>
    rw [Shadow.serve_reported_asks asks, List.map_append, List.map_singleton, holds.id,
      holds.slot asks]
  next silent => rw [Shadow.serve_reported_silent silent]

theorem Card.serve_ascending (card : Card r s g) :
    (g.shown :: g.serve.reported).Pairwise (· < ·) := by
  by_cases asks : g.AsksNext
  · rw [Shadow.serve_reported_asks asks, ← List.cons_append, List.pairwise_append]
    refine ⟨card.ascending, List.pairwise_singleton _ _, ?_⟩
    intro k member last single
    have := card.reported_le k member
    rw [List.mem_singleton.1 single]
    omega
  · rw [Shadow.serve_reported_silent asks]
    exact card.ascending

theorem Card.serve_reported_le (card : Card r s g) {k : ℕ} (member : k ∈ g.shown :: g.serve.reported) :
    k ≤ g.served + 1 := by
  rcases Shadow.mem_serve.1 member with old | ⟨rfl, -⟩
  · exact Nat.le_succ_of_le (card.reported_le k old)
  · exact le_rfl

theorem Card.serve_asked_le (card : Card r s g) (served : g.served + 1 < g.arena.next) {k : ℕ}
    (member : k ∈ g.shown :: g.serve.reported) : k ≤ g.request := by
  rcases Shadow.mem_serve.1 member with old | ⟨rfl, asks⟩
  · exact card.asked_le k old
  · exact card.unserved _ (Nat.lt_succ_self _) served asks

/-- The feedback that was asked for last is on its way once its chunk is served. -/
theorem Card.serve_pending (card : Card r s g) : g.request ∈ g.shown :: g.serve.reported ∨
    g.served + 1 < g.request ∧ (g.chunk g.request).feedbackSlotIndex &&& 0x8000 = 0 := by
  rcases card.pending with here | ⟨later, asks⟩
  · exact .inl (Shadow.mem_serve.2 (.inl here))
  · rcases Nat.eq_or_lt_of_le (Nat.succ_le_of_lt later) with now | still
    · rw [← now] at asks ⊢
      exact .inl (Shadow.mem_serve.2 (.inr ⟨rfl, asks⟩))
    · exact .inr ⟨still, asks⟩

theorem Card.serve_wire (card : Card r s g) {command : ℕ}
    (read : readChunk s.mem command = g.chunk (g.served + 1)) :
    s.wire ++ [(readChunk s.mem command).message] =
      (List.range' 1 (g.served + 1)).map fun k => (g.chunk k).message := by
  rw [read, card.wire, List.range'_1_concat, List.map_append, List.map_singleton, Nat.add_comm 1]

/-- **The card serves a chunk.** -/
theorem Inv.serve (inv : Inv r s g) {command : ℕ} {commands : List ℕ}
    (next : s.commands = command :: commands) : Inv r (s.serve command commands) g.serve := by
  obtain ⟨served, address, rest⟩ := inv.card.next_command next
  have holds := inv.card.holds (g.served + 1) (by omega) served
  have read : readChunk s.mem command = g.chunk (g.served + 1) := by rw [address, holds.read]
  exact
    { books := inv.books
      card :=
        { inv.card with
          served_lt := served
          reports := inv.card.serve_reports read served commands
          ascending := inv.card.serve_ascending
          reported_le := fun k => inv.card.serve_reported_le
          commands := rest
          wire := inv.card.serve_wire read
          holds := fun k unserved => inv.card.holds k (Nat.lt_of_succ_lt unserved)
          asked_le := fun k => inv.card.serve_asked_le served
          unserved := fun k unserved => inv.card.unserved k (Nat.lt_of_succ_lt unserved)
          pending := inv.card.serve_pending }
      doing := inv.doing.card rfl rfl rfl
      valid := inv.valid
      roomy := inv.roomy }

/-- **The card writes a feedback.** -/
theorem Inv.report (inv : Inv r s g) {slot id : UInt16} {reports : List (UInt16 × UInt16)}
    (next : s.reports = (slot, id) :: reports) : ∃ g', Inv r (s.report slot id reports) g' := by
  have listed := inv.card.reports
  rw [next] at listed
  cases reported : g.reported with
  | nil =>
      rw [reported] at listed
      cases listed
  | cons k later =>
      rw [reported, List.map_cons, List.cons.injEq, Prod.mk.injEq] at listed
      obtain ⟨⟨rfl, rfl⟩, rfl⟩ := listed
      have ascending := inv.card.ascending
      have reported_le := inv.card.reported_le
      have asked_le := inv.card.asked_le
      have pending := inv.card.pending
      rw [reported] at ascending reported_le asked_le pending
      have newer : g.shown < k := (List.pairwise_cons.1 ascending).1 k List.mem_cons_self
      have other : g.request ≠ g.shown :=
        (lt_of_lt_of_le newer (asked_le k (List.mem_cons_of_mem _ List.mem_cons_self))).ne'
      refine ⟨{ g with shown := k, reported := later }, ?_⟩
      exact
        { books := inv.books
          card :=
            { inv.card with
              seen_le := inv.card.seen_le.trans newer.le
              slot := Function.update_self _ _ _
              reports := rfl
              ascending := (List.pairwise_cons.1 ascending).2
              reported_le := fun j member => reported_le j (List.mem_cons_of_mem _ member)
              asked_le := fun j member => asked_le j (List.mem_cons_of_mem _ member)
              pending := pending.imp_left fun here => (List.mem_cons.1 here).resolve_left other }
          doing := inv.doing.card rfl rfl rfl
          valid := inv.valid
          roomy := inv.roomy }

/-- Other handles keep to their own memory and slots. -/
theorem Inv.others (inv : Inv r s g) {mem : ℕ → UInt8} {slots : UInt16 → UInt16}
    (own : ∀ i, s.tx.bufferOffset ≤ i → i < s.tx.bufferOffset + s.tx.bufferSize →
      mem i = s.mem i)
    (slot : slots s.slot = s.slots s.slot) : Inv r { s with mem, slots } g := by
  have spared : Spared r s.mem mem := by
    rw [inv.books.bufferOffset, inv.books.bufferSize] at own
    exact own
  rw [Sys.slot, inv.books.feedbackSlot] at slot
  refine
    { books := inv.books
      card :=
        { inv.card with
          slot := slot.trans inv.card.slot
          holds := inv.card.spared inv.books spared }
      doing := ?_
      valid := inv.valid
      roomy := inv.roomy }
  have doing := inv.doing
  cases pc : s.pc with
  | idle =>
      simp only [Doing, pc] at doing ⊢
      exact fun some => { (doing some).spared inv.books spared slots with }
  | sequence q =>
      simp only [Doing, pc] at doing ⊢
      exact doing
  | space q =>
      simp only [Doing, pc] at doing ⊢
      exact doing
  | filling stores send =>
      cases send with
      | none =>
          simp only [Doing, pc] at doing ⊢
          exact { doing.spared inv.books spared slots with }
      | some send =>
          simp only [Doing, pc] at doing ⊢
          exact { doing.spared inv.books spared slots with }

end Card

/-! ## Runs -/

section Runs

variable {r : Region} {s : Sys}

/-- The state that `exanic_acquire_tx_buffer` leaves. -/
theorem Sys.Initial.inv (initial : s.Initial r) : ∃ g, Inv r s g := by
  have tx := initial.tx
  have slot := initial.slots
  rw [Sys.slot, tx] at slot
  refine ⟨⟨Arena.empty r.size, 0, 0, 0, [], fun _ => readChunk s.mem 0⟩, ?_⟩
  exact
    { books := tx ▸ r.books
      card :=
        { seen_le := le_rfl
          served_lt := Nat.one_pos
          slot
          reports := initial.reports
          ascending := List.pairwise_singleton _ _
          reported_le := fun k member => (List.mem_singleton.1 member).le
          asked_le := fun k member => (List.mem_singleton.1 member).le
          unserved := fun k unserved sent =>
            absurd (Nat.lt_of_lt_of_le sent (Nat.succ_le_of_lt unserved)) (Nat.lt_irrefl _)
          pending := Or.inl List.mem_cons_self
          commands := initial.commands
          wire := initial.wire
          handed := initial.handed
          holds := fun k unserved sent =>
            absurd (Nat.lt_of_lt_of_le sent (Nat.succ_le_of_lt unserved)) (Nat.lt_irrefl _) }
      doing := by
        simp only [Doing, initial.pc, tx]
        intro some
        cases some
      valid := by
        rw [initial.errors]
        exact List.not_mem_nil
      roomy := fun _ _ => by
        rw [tx]
        exact (Nat.sub_le _ _).trans (Nat.div_le_self _ _) }

/-- **Every step keeps the invariant.** -/
theorem inv_step {s' : Sys} (step : Step s s') {g : Shadow} (inv : Inv r s g) :
    ∃ g', Inv r s' g' := by
  cases step with
  | call idle object => exact ⟨g, inv.call idle _⟩
  | host => exact inv.host
  | store idle prepared behind inside => exact ⟨g, inv.callerStore idle prepared behind inside⟩
  | finish idle prepared smaller => exact ⟨g, inv.finish idle prepared smaller⟩
  | abort idle => exact ⟨g, inv.abort idle⟩
  | serve next => exact ⟨g.serve, inv.serve next⟩
  | report next => exact inv.report next
  | others own slot => exact ⟨g, inv.others own slot⟩

/-- **Every run keeps the invariant.** -/
theorem inv_run (reachable : Reachable r s) : ∃ g, Inv r s g := by
  obtain ⟨start, initial, run⟩ := reachable
  induction run with
  | refl => exact initial.inv
  | tail _ step ih =>
      obtain ⟨g, inv⟩ := ih
      exact inv_step step inv

/-- **What the card sent, and what the chunks it has not served hold, is what the calls
handed over, in order.** -/
theorem delivered_in_order (reachable : Reachable r s) :
    s.wire ++ s.commands.map (fun command => (readChunk s.mem command).message) = s.handed := by
  obtain ⟨g, inv⟩ := inv_run reachable
  have served := inv.card.served_lt
  have waiting : s.commands.map (fun command => (readChunk s.mem command).message) =
      (List.range' (g.served + 1) (g.arena.next - 1 - g.served)).map
        fun k => (g.chunk k).message := by
    rw [inv.card.commands, List.map_map]
    refine List.map_congr_left fun k member => ?_
    have := List.mem_range'_1.1 member
    exact congrArg TxChunk.message (inv.card.holds k (by omega) (by omega)).read
  rw [waiting, inv.card.wire, inv.card.handed, ← List.map_append,
    show g.served + 1 = 1 + g.served from Nat.add_comm _ _, List.range'_append_1,
    show g.served + (g.arena.next - 1 - g.served) = g.arena.next - 1 by omega]

/-- Two frames and a payload, of which the card has served the first. -/
def sampleRun : List Act :=
  [.call (.transmitFrame [1, 2, 3] false), .host 10,
    .call (.transmitPayload 7 exanicTxTypeTcpAccel [4, 5] fun _ => 0), .host 10, .serve, .report,
    .call (.transmitFrame [6] false), .host 10]

theorem delivered_in_order_sample :
    (sampleRun.foldl Sys.act (acquired defaultRegion)).wire ++
        (sampleRun.foldl Sys.act (acquired defaultRegion)).commands.map (fun command =>
          (readChunk (sampleRun.foldl Sys.act (acquired defaultRegion)).mem command).message) =
      (sampleRun.foldl Sys.act (acquired defaultRegion)).handed :=
  delivered_in_order ((acquired_reachable defaultRegion).acts sampleRun)

example : (sampleRun.foldl Sys.act (acquired defaultRegion)).wire = [⟨exanicTxTypeRaw, 0, [1, 2, 3]⟩] ∧
    (sampleRun.foldl Sys.act (acquired defaultRegion)).handed.length = 3 := by decide +kernel

/-- **No feedback is ever refused.** -/
theorem feedback_valid (reachable : Reachable r s) :
    (s.tx.exanicUpdateTxFeedback (s.slots s.slot)).2.2 = true ∧
      Error.invalidFeedback ∉ s.errors := by
  obtain ⟨g, inv⟩ := inv_run reachable
  have slot : s.slots s.slot = .ofNat g.shown := by
    rw [Sys.slot, inv.books.feedbackSlot]
    exact inv.card.slot
  refine ⟨?_, inv.valid⟩
  rw [slot, inv.books.exanicUpdateTxFeedback inv.card.seen_le inv.shown_lt]

theorem feedback_valid_sample :
    ((sampleRun.foldl Sys.act (acquired defaultRegion)).tx.exanicUpdateTxFeedback
        ((sampleRun.foldl Sys.act (acquired defaultRegion)).slots
          (sampleRun.foldl Sys.act (acquired defaultRegion)).slot)).2.2 = true ∧
      Error.invalidFeedback ∉ (sampleRun.foldl Sys.act (acquired defaultRegion)).errors :=
  feedback_valid ((acquired_reachable defaultRegion).acts sampleRun)

end Runs

end ExanicCapture.Tx
