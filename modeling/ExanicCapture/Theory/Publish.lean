/-
# Theory.Publish -- taking something down, changing it, and publishing it again

A structure that others look at while it is being changed is first hidden and shown
again at the end.  Whoever looks in between sees what was there before, nothing, or
what is there afterwards (`Publish.throughout`).
-/
import Mathlib.Data.List.Basic

namespace ExanicCapture.Theory

set_option autoImplicit false

universe u v w

namespace Publish

variable {σ : Type u} {α : Type v} {β : Type w} (run : σ → α → σ) (view : σ → Option β)

/-- The steps leave nothing to be seen. -/
theorem hidden_foldl {body : List α} (quiet : ∀ a ∈ body, ∀ s, view s = none → view (run s a) = none)
    {s : σ} (hidden : view s = none) : view (body.foldl run s) = none := by
  induction body generalizing s with
  | nil => exact hidden
  | cons a body ih =>
      exact ih (fun b member => quiet b (List.mem_cons_of_mem _ member))
        (quiet a List.mem_cons_self s hidden)

/-- The property holds before the first step and after each. -/
def Throughout (p : σ → Prop) (as : List α) (s : σ) : Prop :=
  ∀ k, p ((as.take k).foldl run s)

variable {run view}

theorem Throughout.append {p : σ → Prop} {as bs : List α} {s : σ} (first : Throughout run p as s)
    (second : Throughout run p bs (as.foldl run s)) : Throughout run p (as ++ bs) s := by
  intro k
  rcases Nat.lt_or_ge as.length k with beyond | inside
  · rw [List.take_append, List.take_of_length_le (Nat.le_of_lt beyond), List.foldl_append]
    exact second _
  · rw [List.take_append_of_le_length inside]
    exact first k

/-- **Between hiding and showing there is nothing to be seen.** -/
theorem throughout {down up : α} {body : List α} {s : σ} (hidden : view (run s down) = none)
    (quiet : ∀ a ∈ body, ∀ s, view s = none → view (run s a) = none) :
    Throughout run (fun t => view t = view s ∨ view t = none ∨
      view t = view ((down :: body ++ [up]).foldl run s)) (down :: body ++ [up]) s := by
  intro k
  cases k with
  | zero => exact .inl rfl
  | succ k =>
      rw [List.cons_append, List.take_succ_cons, List.foldl_cons]
      rcases Nat.lt_or_ge body.length k with beyond | inside
      · rw [List.take_of_length_le (by simpa using Nat.succ_le_of_lt beyond)]
        exact .inr (.inr rfl)
      · rw [List.take_append_of_le_length inside]
        exact .inr (.inl (hidden_foldl run view
          (fun a member => quiet a (List.mem_of_mem_take member)) hidden))

variable (run)

/-- What nobody touches stays. -/
theorem same_foldl {γ : Type w} (view : σ → γ) {as : List α}
    (same : ∀ a ∈ as, ∀ s, view (run s a) = view s) (s : σ) : view (as.foldl run s) = view s := by
  induction as generalizing s with
  | nil => rfl
  | cons a as ih =>
      exact (ih (fun b member => same b (List.mem_cons_of_mem _ member)) _).trans
        (same a List.mem_cons_self s)

end Publish

end ExanicCapture.Theory
