/-
# Theory.Windows -- a timed sequence cut into windows

Items arrive one after another, each with a clock reading.  A window is opened at
some reading; an item at least `span` later closes it and opens the next one, which
it is the first item of.  A span of 0 never closes a window.

`split_items` says that nothing is lost, doubled or reordered, `split_laterBegin` that
every window but the first is opened by its first item, and `split_within` that a clock
which never goes back keeps every item within the span of its window.
-/
import Mathlib.Data.List.Basic
import Mathlib.Tactic.Common

namespace ExanicCapture.Theory

set_option autoImplicit false

universe u

variable {α : Type u}

structure Window (α : Type u) where
  since : Int
  items : List α

/-- The windows so far: the closed ones in order, and the open one. -/
structure Windows (α : Type u) where
  closed : List (Window α)
  current : Window α

namespace Windows

def all (w : Windows α) : List (Window α) :=
  w.closed ++ [w.current]

/-- The next item is too late for the open window. -/
def Due (span : ℕ) (w : Windows α) (now : Int) : Prop :=
  0 < span ∧ w.current.since + span ≤ now

instance (span : ℕ) (w : Windows α) (now : Int) : Decidable (w.Due span now) :=
  inferInstanceAs (Decidable (_ ∧ _))

/-- The open window is closed, and the next one opened. -/
def next (w : Windows α) (now : Int) : Windows α :=
  { closed := w.all, current := { since := now, items := [] } }

/-- `a` goes into the open window. -/
def push (w : Windows α) (a : α) : Windows α :=
  { w with current := { w.current with items := w.current.items ++ [a] } }

def add (span : ℕ) (time : α → Int) (w : Windows α) (a : α) : Windows α :=
  (if w.Due span (time a) then w.next (time a) else w).push a

/-- The windows of a whole sequence, the first one opened at `since`. -/
def split (span : ℕ) (time : α → Int) (since : Int) (as : List α) : Windows α :=
  as.foldl (add span time) { closed := [], current := { since, items := [] } }

variable {span : ℕ} {time : α → Int}

theorem all_getElem? {w : Windows α} {k : ℕ} {v : Window α} :
    w.all[k]? = some v ↔ w.closed[k]? = some v ∨ k = w.closed.length ∧ w.current = v := by
  rw [all, List.getElem?_append]
  split
  · rename_i inside
    exact ⟨Or.inl, fun found => found.resolve_right fun last => by omega⟩
  · rename_i outside
    rw [List.getElem?_singleton, List.getElem?_eq_none (Nat.le_of_not_lt outside)]
    constructor
    · intro found
      split at found
      · exact Or.inr ⟨by omega, Option.some.inj found⟩
      · cases found
    · rintro (found | ⟨last, same⟩)
      · cases found
      · rw [if_pos (by omega), same]

/-! ## Every item is kept, in order -/

theorem add_items (w : Windows α) (a : α) :
    (w.add span time a).all.flatMap Window.items = w.all.flatMap Window.items ++ [a] := by
  unfold add
  split <;> simp [next, push, all]

theorem foldl_items (w : Windows α) (as : List α) :
    (as.foldl (add span time) w).all.flatMap Window.items =
      w.all.flatMap Window.items ++ as := by
  induction as generalizing w with
  | nil => simp
  | cons a as ih => rw [List.foldl_cons, ih, add_items, List.append_assoc, List.singleton_append]

theorem split_items (since : Int) (as : List α) :
    (split span time since as).all.flatMap Window.items = as := by
  rw [split, foldl_items]
  rfl

/-! ## Where the windows begin -/

/-- Every window but the first one was opened by its first item. -/
def LaterBegin (time : α → Int) (w : Windows α) : Prop :=
  ∀ v ∈ w.all.tail, v.items.head?.map time = some v.since

theorem add_laterBegin {w : Windows α} (begins : w.LaterBegin time) (a : α) :
    (w.add span time a).LaterBegin time := by
  obtain ⟨closed, current⟩ := w
  unfold add
  split
  · intro v member
    rw [push, next, all, List.tail_append_of_ne_nil (by simp [all])] at member
    rcases List.mem_append.1 member with old | new
    · exact begins v old
    · obtain rfl := List.mem_singleton.1 new
      rfl
  · cases closed with
    | nil => intro v member; cases member
    | cons first closed =>
        intro v member
        rcases List.mem_append.1 member with old | new
        · exact begins v (List.mem_append_left _ old)
        · obtain rfl := List.mem_singleton.1 new
          have before := begins current (List.mem_append_right _ (List.mem_singleton_self _))
          obtain ⟨head, found, same⟩ := Option.map_eq_some_iff.1 before
          simp [push, List.head?_append, found, same]

theorem foldl_laterBegin {w : Windows α} (begins : w.LaterBegin time) (as : List α) :
    (as.foldl (add span time) w).LaterBegin time := by
  induction as generalizing w with
  | nil => exact begins
  | cons a as ih => exact ih (add_laterBegin begins a)

theorem split_laterBegin (since : Int) (as : List α) :
    (split span time since as).LaterBegin time :=
  foldl_laterBegin (by intro v member; cases member) as

theorem add_first (w : Windows α) (a : α) :
    (w.add span time a).all.head?.map Window.since = w.all.head?.map Window.since := by
  obtain ⟨closed, current⟩ := w
  unfold add
  cases closed <;> split <;> rfl

theorem split_first (since : Int) (as : List α) :
    (split span time since as).all.head?.map Window.since = some since := by
  have kept : ∀ w : Windows α, (as.foldl (add span time) w).all.head?.map Window.since =
      w.all.head?.map Window.since := by
    induction as with
    | nil => exact fun w => rfl
    | cons a as ih => exact fun w => (ih _).trans (add_first w a)
  exact kept _

/-! ## Every item is within the span of its window -/

def Within (span : ℕ) (time : α → Int) (v : Window α) : Prop :=
  ∀ a ∈ v.items, v.since ≤ time a ∧ time a < v.since + span

theorem add_within {w : Windows α} (positive : 0 < span) (within : ∀ v ∈ w.all, Within span time v)
    {a : α} (later : w.current.since ≤ time a) :
    ∀ v ∈ (w.add span time a).all, Within span time v := by
  unfold add
  split
  · intro v member
    rcases List.mem_append.1 member with old | new
    · exact within v old
    · obtain rfl := List.mem_singleton.1 new
      intro b first
      obtain rfl := List.mem_singleton.1 first
      exact ⟨Int.le_refl _, by show time b < time b + _; omega⟩
  · rename_i notDue
    have early : time a < w.current.since + span := by
      by_contra late
      exact notDue ⟨positive, by omega⟩
    intro v member
    rcases List.mem_append.1 member with old | new
    · exact within v (List.mem_append_left _ old)
    · obtain rfl := List.mem_singleton.1 new
      intro b inside
      rcases List.mem_append.1 inside with before | last
      · exact within w.current (List.mem_append_right _ (List.mem_singleton_self _)) b before
      · obtain rfl := List.mem_singleton.1 last
        exact ⟨later, early⟩

theorem add_since_le {w : Windows α} {a : α} (later : w.current.since ≤ time a) :
    (w.add span time a).current.since ≤ time a := by
  unfold add
  split
  · exact Int.le_refl _
  · exact later

theorem foldl_within {w : Windows α} (positive : 0 < span) {as : List α}
    (within : ∀ v ∈ w.all, Within span time v)
    (monotone : (w.current.since :: as.map time).Pairwise (· ≤ ·)) :
    ∀ v ∈ (as.foldl (add span time) w).all, Within span time v := by
  induction as generalizing w with
  | nil => exact within
  | cons a as ih =>
      rw [List.map_cons, List.pairwise_cons] at monotone
      obtain ⟨first, rest⟩ := monotone
      have later := first _ List.mem_cons_self
      refine ih (add_within positive within later) (List.pairwise_cons.2 ⟨?_, rest.tail⟩)
      intro t member
      exact Int.le_trans (add_since_le later) ((List.pairwise_cons.1 rest).1 t member)

theorem split_within (positive : 0 < span) {since : Int} {as : List α}
    (monotone : (since :: as.map time).Pairwise (· ≤ ·)) :
    ∀ v ∈ (split span time since as).all, Within span time v := by
  refine foldl_within positive ?_ monotone
  intro v member
  obtain rfl := List.mem_singleton.1 member
  intro a inside
  cases inside

end Windows

end ExanicCapture.Theory
