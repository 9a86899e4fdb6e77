/-
# Theory.Ternary -- rules of a pattern and a mask, written field by field

A rule compares the masked bytes of its input with a pattern.  It is built up from a
blank one by stores to fields.  When two stores hit either the same field or fields
apart, the rule tests exactly what the last store of each field asks for
(`matches_ofStores`): the earlier stores to that field have left no trace, and bytes
that no store has touched match anything.
-/
import ExanicCapture.Theory.ByteOrder
import ExanicCapture.Theory.Memory
import Mathlib.Data.UInt

namespace ExanicCapture.Theory

set_option autoImplicit false

universe u

/-- A pattern and a mask. -/
structure Ternary (α : Type u) where
  pattern : ℕ → α
  mask : ℕ → α

namespace Ternary

variable {α : Type u}

/-- A value of the pattern and the mask for one field. -/
structure Store (α : Type u) where
  offset : ℕ
  pattern : List α
  mask : List α
  same : pattern.length = mask.length

namespace Store

def width (s : Store α) : ℕ := s.mask.length

/-- The two stores are to one field. -/
def Same (s t : Store α) : Prop := s.offset = t.offset ∧ s.width = t.width

/-- The two stores have no place in common. -/
def Apart (s t : Store α) : Prop :=
  s.offset + s.width ≤ t.offset ∨ t.offset + t.width ≤ s.offset

theorem Apart.symm {s t : Store α} (apart : s.Apart t) : t.Apart s := apart.elim .inr .inl

instance (s t : Store α) : Decidable (s.Apart t) := by
  unfold Apart
  infer_instance

/-- The place is in the field of the store. -/
def Covers (s : Store α) (i : ℕ) : Prop := s.offset ≤ i ∧ i < s.offset + s.width

theorem Apart.not_covers {s t : Store α} (apart : s.Apart t) {i : ℕ} (covers : s.Covers i) :
    ¬ t.Covers i := by
  unfold Apart Covers at *
  omega

theorem Same.covers {s t : Store α} (same : s.Same t) {i : ℕ} (covers : s.Covers i) :
    t.Covers i := by
  unfold Same Covers at *
  omega

end Store

/-- The rule after a store. -/
def store (rule : Ternary α) (s : Store α) : Ternary α where
  pattern := Memory.copy rule.pattern s.offset s.pattern
  mask := Memory.copy rule.mask s.offset s.mask

/-- The rule after some stores. -/
def stores (rule : Ternary α) (ss : List (Store α)) : Ternary α := ss.foldl store rule

theorem stores_append (rule : Ternary α) (ss ts : List (Store α)) :
    rule.stores (ss ++ ts) = (rule.stores ss).stores ts :=
  List.foldl_append

theorem stores_concat (rule : Ternary α) (ss : List (Store α)) (s : Store α) :
    rule.stores (ss ++ [s]) = (rule.stores ss).store s :=
  rule.stores_append ss [s]

/-- A store leaves every other place alone. -/
theorem store_of_not_covers (rule : Ternary α) {s : Store α} {i : ℕ} (outside : ¬ s.Covers i) :
    (rule.store s).pattern i = rule.pattern i ∧ (rule.store s).mask i = rule.mask i := by
  have same := s.same
  unfold Store.Covers Store.width at outside
  rcases Nat.lt_or_ge i s.offset with before | behind
  · exact ⟨Memory.copy_of_lt _ _ before, Memory.copy_of_lt _ _ before⟩
  · exact ⟨Memory.copy_of_ge _ (by omega), Memory.copy_of_ge _ (by omega)⟩

theorem stores_of_not_covers (rule : Ternary α) {ss : List (Store α)} {i : ℕ}
    (outside : ∀ s ∈ ss, ¬ s.Covers i) :
    (rule.stores ss).pattern i = rule.pattern i ∧ (rule.stores ss).mask i = rule.mask i := by
  induction ss generalizing rule with
  | nil => exact ⟨rfl, rfl⟩
  | cons s ss ih =>
      have first := rule.store_of_not_covers (outside s List.mem_cons_self)
      have rest := ih (rule.store s) fun t member => outside t (List.mem_cons_of_mem _ member)
      exact ⟨rest.1.trans first.1, rest.2.trans first.2⟩

theorem mask_store (rule : Ternary α) (s : Store α) :
    Memory.slice (rule.store s).mask s.offset s.width = s.mask :=
  Memory.slice_copy_self _ _ _ rfl

theorem pattern_store (rule : Ternary α) (s : Store α) :
    Memory.slice (rule.store s).pattern s.offset s.width = s.pattern :=
  Memory.slice_copy_self _ _ _ s.same

/-- The field of the last store to it holds what that store has put there. -/
theorem mask_of_last (rule : Ternary α) {before after : List (Store α)} {s : Store α}
    (last : ∀ t ∈ after, s.Apart t) :
    Memory.slice (rule.stores (before ++ s :: after)).mask s.offset s.width = s.mask := by
  have stored := (rule.stores before).mask_store s
  rw [stores_append, ← stored]
  apply Memory.slice_congr
  intro i low high
  exact (stores_of_not_covers _ fun t member =>
    (last t member).not_covers (⟨low, high⟩ : s.Covers i)).2

theorem pattern_of_last (rule : Ternary α) {before after : List (Store α)} {s : Store α}
    (last : ∀ t ∈ after, s.Apart t) :
    Memory.slice (rule.stores (before ++ s :: after)).pattern s.offset s.width = s.pattern := by
  have stored := (rule.stores before).pattern_store s
  rw [stores_append, ← stored]
  apply Memory.slice_congr
  intro i low high
  exact (stores_of_not_covers _ fun t member =>
    (last t member).not_covers (⟨low, high⟩ : s.Covers i)).1

/-! ## Matching -/

variable [AndOp α]

/-- Masked, the first `n` bytes of the input are the pattern. -/
def Matches (rule : Ternary α) (n : ℕ) (input : ℕ → α) : Prop :=
  ∀ i < n, input i &&& rule.mask i = rule.pattern i

instance [DecidableEq α] (rule : Ternary α) (n : ℕ) (input : ℕ → α) :
    Decidable (rule.Matches n input) := by
  unfold Matches
  infer_instance

/-- The field of the input is what the store asks for. -/
def Store.Test (s : Store α) (input : ℕ → α) : Prop :=
  List.zipWith (· &&& ·) (Memory.slice input s.offset s.width) s.mask = s.pattern

/-- The stores that no later one has hit. -/
def lasts : List (Store α) → List (Store α)
  | [] => []
  | s :: ss => if ∀ t ∈ ss, s.Apart t then s :: lasts ss else lasts ss

/-- The store is the last one to its field. -/
def Last (s : Store α) (ss : List (Store α)) : Prop :=
  ∃ before after, ss = before ++ s :: after ∧ ∀ t ∈ after, s.Apart t

omit [AndOp α] in
theorem last_cons {s first : Store α} {ss : List (Store α)} :
    Last s (first :: ss) ↔ (s = first ∧ ∀ t ∈ ss, first.Apart t) ∨ Last s ss := by
  constructor
  · rintro ⟨before, after, same, apart⟩
    cases before with
    | nil =>
        obtain ⟨rfl, rfl⟩ := List.cons.inj same
        exact .inl ⟨rfl, apart⟩
    | cons b before =>
        obtain ⟨rfl, rfl⟩ := List.cons.inj same
        exact .inr ⟨before, after, rfl, apart⟩
  · rintro (⟨rfl, apart⟩ | ⟨before, after, rfl, apart⟩)
    · exact ⟨[], ss, rfl, apart⟩
    · exact ⟨first :: before, after, rfl, apart⟩

omit [AndOp α] in
theorem mem_lasts {s : Store α} {ss : List (Store α)} : s ∈ lasts ss ↔ Last s ss := by
  induction ss with
  | nil => simp [lasts, Last]
  | cons first ss ih =>
      rw [lasts, last_cons]
      split
      next apart => rw [List.mem_cons, ih, and_iff_left apart]
      next overwritten =>
        exact ih.trans ⟨.inr, fun either => either.resolve_left fun here => overwritten here.2⟩

omit [AndOp α] in
/-- Stores to other fields do not compete. -/
theorem lasts_append {ss ts : List (Store α)} (apart : ∀ s ∈ ss, ∀ t ∈ ts, s.Apart t) :
    lasts (ss ++ ts) = lasts ss ++ lasts ts := by
  induction ss with
  | nil => rfl
  | cons s ss ih =>
      have rest := ih fun s inside => apart s (List.mem_cons_of_mem _ inside)
      have first := apart s List.mem_cons_self
      have same : (∀ t ∈ ss ++ ts, s.Apart t) ↔ ∀ t ∈ ss, s.Apart t := by
        simp only [List.forall_mem_append, and_iff_left_iff_imp]
        exact fun _ => first
      rw [List.cons_append, lasts, lasts, rest]
      simp only [same]
      split <;> rfl

/-- Two stores of the list are to one field, or apart. -/
def Tidy (ss : List (Store α)) : Prop := ∀ s ∈ ss, ∀ t ∈ ss, s.Same t ∨ s.Apart t

omit [AndOp α] in
theorem Tidy.append {ss ts : List (Store α)} (first : Tidy ss) (second : Tidy ts)
    (apart : ∀ s ∈ ss, ∀ t ∈ ts, s.Apart t) : Tidy (ss ++ ts) := by
  intro s s_mem t t_mem
  rcases List.mem_append.1 s_mem with hs | hs <;> rcases List.mem_append.1 t_mem with ht | ht
  · exact first s hs t ht
  · exact .inr (apart s hs t ht)
  · exact .inr (apart t ht s hs).symm
  · exact second s hs t ht

omit [AndOp α] in
/-- A place that a store covers has a last store. -/
theorem exists_last {ss : List (Store α)} (tidy : Tidy ss) {i : ℕ} {s : Store α} (member : s ∈ ss)
    (covers : s.Covers i) : ∃ t, Last t ss ∧ t.Covers i := by
  induction ss generalizing s with
  | nil => exact absurd member List.not_mem_nil
  | cons first ss ih =>
      have tail : Tidy ss := fun s hs t ht =>
        tidy s (List.mem_cons_of_mem _ hs) t (List.mem_cons_of_mem _ ht)
      by_cases later : ∃ t ∈ ss, t.Covers i
      · obtain ⟨t, inside, covered⟩ := later
        obtain ⟨last, ⟨before, after, rfl, apart⟩, there⟩ := ih tail inside covered
        exact ⟨last, ⟨first :: before, after, rfl, apart⟩, there⟩
      · obtain rfl : s = first := (List.mem_cons.1 member).resolve_right fun inside =>
          later ⟨s, inside, covers⟩
        refine ⟨s, ⟨[], ss, rfl, fun t inside => ?_⟩, covers⟩
        refine (tidy s member t (List.mem_cons_of_mem _ inside)).resolve_left fun same => ?_
        exact later ⟨t, inside, same.covers covers⟩

/-- A field that matches, byte by byte. -/
theorem test_iff (rule : Ternary α) {ss : List (Store α)} {s : Store α} (last : Last s ss)
    (input : ℕ → α) :
    s.Test input ↔
      ∀ i, s.Covers i → input i &&& (rule.stores ss).mask i = (rule.stores ss).pattern i := by
  obtain ⟨before, after, rfl, apart⟩ := last
  have mask : Memory.slice (rule.stores (before ++ s :: after)).mask s.offset s.width = _ :=
    rule.mask_of_last apart
  have pattern : Memory.slice (rule.stores (before ++ s :: after)).pattern s.offset s.width = _ :=
    rule.pattern_of_last apart
  generalize rule.stores (before ++ s :: after) = final at mask pattern ⊢
  rw [Store.Test, ← mask, ← pattern]
  simp only [Memory.slice, List.zipWith_map, List.zipWith_self, List.map_inj_left, List.mem_range]
  constructor
  · rintro same i ⟨low, high⟩
    obtain ⟨j, rfl⟩ := Nat.exists_eq_add_of_le low
    exact same j (by omega)
  · intro same j inside
    exact same _ ⟨Nat.le_add_right _ _, by omega⟩

variable [Zero α]

/-- The rule that everything matches. -/
def blank : Ternary α := ⟨fun _ => 0, fun _ => 0⟩

/-- **A rule tests what the last store of each field asks for.** -/
theorem matches_ofStores (and_zero : ∀ a : α, a &&& 0 = 0) {ss : List (Store α)} {n : ℕ}
    (tidy : Tidy ss) (inside : ∀ s ∈ ss, s.offset + s.width ≤ n) (input : ℕ → α) :
    ((blank : Ternary α).stores ss).Matches n input ↔ ∀ s ∈ lasts ss, s.Test input := by
  constructor
  · intro whole s member
    have last := mem_lasts.1 member
    rw [test_iff blank last]
    intro i covers
    obtain ⟨before, after, same, -⟩ := last
    have := inside s (by simp [same])
    have := covers.2
    exact whole i (by omega)
  · intro tests i _
    by_cases covered : ∃ s ∈ ss, s.Covers i
    · obtain ⟨s, member, covers⟩ := covered
      obtain ⟨t, last, there⟩ := exists_last tidy member covers
      exact (test_iff blank last input).1 (tests t (mem_lasts.2 last)) i there
    · have untouched : ((blank : Ternary α).stores ss).pattern i = _ ∧ _ :=
        blank.stores_of_not_covers fun s member covers => covered ⟨s, member, covers⟩
      rw [untouched.1, untouched.2]
      exact and_zero _

/-! ## Integers, most significant byte first -/

/-- The integer in a field of the input. -/
def bigField (input : ℕ → UInt8) (offset width : ℕ) : ℕ :=
  ByteOrder.big.value (Memory.slice input offset width)

theorem bigField_lt (input : ℕ → UInt8) (offset width : ℕ) :
    bigField input offset width < 256 ^ width :=
  ByteOrder.big.value_lt (Memory.slice_length input offset width)

theorem littleBytes_and (w a b : ℕ) :
    ByteOrder.littleBytes w (a &&& b) =
      List.zipWith (· &&& ·) (ByteOrder.littleBytes w a) (ByteOrder.littleBytes w b) := by
  induction w generalizing a b with
  | zero => rfl
  | succ w ih =>
      have low : UInt8.ofNat (a &&& b) = UInt8.ofNat a &&& UInt8.ofNat b := by
        apply UInt8.toNat_inj.1
        rw [UInt8.toNat_and, UInt8.toNat_ofNat', UInt8.toNat_ofNat', UInt8.toNat_ofNat',
          Nat.and_mod_two_pow]
      have high : (a &&& b) / 256 = a / 256 &&& b / 256 := Nat.and_div_two_pow (n := 8)
      simp only [ByteOrder.littleBytes, List.zipWith_cons_cons, low, high, ih]

theorem bigBytes_and (w a b : ℕ) :
    ByteOrder.big.bytes w (a &&& b) =
      List.zipWith (· &&& ·) (ByteOrder.big.bytes w a) (ByteOrder.big.bytes w b) := by
  simp only [ByteOrder.bytes, littleBytes_and]
  exact List.reverse_zipWith (by simp only [ByteOrder.littleBytes_length])

/-- A field that was stored as an integer and its mask. -/
theorem Store.test_bigField {s : Store UInt8} {w v m : ℕ}
    (pattern : s.pattern = ByteOrder.big.bytes w v) (mask : s.mask = ByteOrder.big.bytes w m)
    (small : v < 256 ^ w) (input : ℕ → UInt8) :
    s.Test input ↔ bigField input s.offset w &&& m = v := by
  have width : s.width = w := by rw [Store.width, mask, ByteOrder.bytes_length]
  have slice : Memory.slice input s.offset w = ByteOrder.big.bytes w (bigField input s.offset w) :=
    (ByteOrder.big.bytes_value (Memory.slice_length input s.offset w)).symm
  have below : bigField input s.offset w &&& m < 256 ^ w :=
    lt_of_le_of_lt Nat.and_le_left (bigField_lt input s.offset w)
  rw [Store.Test, width, slice, mask, pattern, ← bigBytes_and]
  constructor
  · intro same
    have value := congrArg ByteOrder.big.value same
    rwa [ByteOrder.value_bytes, ByteOrder.value_bytes, Nat.mod_eq_of_lt below,
      Nat.mod_eq_of_lt small] at value
  · intro same
    rw [same]

/-- A mask of the highest bits compares a prefix. -/
theorem and_prefix {x k w : ℕ} (a : ℕ) (low : k ≤ w) (small : x < 2 ^ w) :
    x &&& (2 ^ w - 2 ^ k) = a ↔ x / 2 ^ k = a / 2 ^ k ∧ 2 ^ k ∣ a := by
  have positive : 0 < 2 ^ k := Nat.two_pow_pos k
  have mask : 2 ^ w - 2 ^ k = 2 ^ k * (2 ^ (w - k) - 1) := by
    rw [Nat.mul_sub, mul_one, ← pow_add, Nat.add_sub_cancel' low]
  have high : (x &&& (2 ^ w - 2 ^ k)) / 2 ^ k = x / 2 ^ k := by
    have below : x / 2 ^ k < 2 ^ (w - k) := by
      rw [Nat.div_lt_iff_lt_mul positive, ← pow_add, Nat.sub_add_cancel low]
      exact small
    rw [Nat.and_div_two_pow, mask, Nat.mul_div_cancel_left _ positive,
      Nat.and_two_pow_sub_one_of_lt_two_pow below]
  have rest : (x &&& (2 ^ w - 2 ^ k)) % 2 ^ k = 0 := by
    rw [Nat.and_mod_two_pow, mask, Nat.mul_mod_right, Nat.and_zero]
  constructor
  · rintro rfl
    exact ⟨high.symm, Nat.dvd_of_mod_eq_zero rest⟩
  · rintro ⟨same, divides⟩
    rw [← Nat.div_add_mod (x &&& (2 ^ w - 2 ^ k)) (2 ^ k), high, rest, same, add_zero]
    exact Nat.mul_div_cancel' divides

end Ternary

end ExanicCapture.Theory
