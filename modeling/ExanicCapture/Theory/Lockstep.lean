/-
# Theory.Lockstep -- two machines fed with the same inputs

`run step inputs a` is a machine that takes one input a step.  Two machines are in
lockstep when a relation survives every common step (`run_related`).  A machine
`Returns` what it answers at some step; an answer stays, so there is one at most
(`Returns.unique`).

`returns_iff` is the rule the module is for.  The second machine may answer one
step later than the first; if every answer of the first is followed by its
translation, and the second never answers before the first, then the second
returns exactly the translations of what the first returns.
-/
import Mathlib.Logic.Basic
import Mathlib.Order.Basic
import Mathlib.Tactic.Common

namespace ExanicCapture.Theory.Lockstep

set_option autoImplicit false

universe u v w

variable {I : Type u} {A : Type v} {α : Type w}

/-- The machine after `k` steps, where step `i` is fed with `inputs i`. -/
def run (step : I → A → A) (inputs : ℕ → I) (a : A) : ℕ → A
  | 0 => a
  | k + 1 => step (inputs k) (run step inputs a k)

/-- The machine answers at some step. -/
def Returns (step : I → A → A) (answer : A → Option α) (inputs : ℕ → I) (a : A) (r : α) : Prop :=
  ∃ k, answer (run step inputs a k) = some r

section One

variable {step : I → A → A} {answer : A → Option α} {inputs : ℕ → I} {a : A}

/-- An answer stays. -/
def Settled (step : I → A → A) (answer : A → Option α) : Prop :=
  ∀ i a r, answer a = some r → answer (step i a) = some r

theorem Settled.later (settled : Settled step answer) {r : α} {k : ℕ}
    (answered : answer (run step inputs a k) = some r) (d : ℕ) :
    answer (run step inputs a (k + d)) = some r := by
  induction d with
  | zero => exact answered
  | succ d ih => exact settled _ _ _ ih

/-- A machine returns at most once. -/
theorem Returns.unique (settled : Settled step answer) {r r' : α}
    (first : Returns step answer inputs a r) (second : Returns step answer inputs a r') :
    r = r' := by
  obtain ⟨k, atK⟩ := first
  obtain ⟨k', atK'⟩ := second
  have := settled.later atK k'
  rw [Nat.add_comm, settled.later atK' k] at this
  exact (Option.some.inj this).symm

end One

section Two

variable {B : Type v} {β : Type w} {stepA : I → A → A} {stepB : I → B → B}
  {answerA : A → Option α} {answerB : B → Option β} {inputs : ℕ → I} {a : A} {b : B}

/-- A relation that every common step preserves holds all along. -/
theorem run_related {rel : A → B → Prop} (start : rel a b)
    (preserved : ∀ k, rel (run stepA inputs a k) (run stepB inputs b k) →
      rel (run stepA inputs a (k + 1)) (run stepB inputs b (k + 1))) (k : ℕ) :
    rel (run stepA inputs a k) (run stepB inputs b k) := by
  induction k with
  | zero => exact start
  | succ k ih => exact preserved k ih

/-- **The second machine returns exactly the translations of what the first
returns.** -/
theorem returns_iff (translate : α → β)
    (forth : ∀ k r, answerA (run stepA inputs a k) = some r →
      answerB (run stepB inputs b (k + 1)) = some (translate r))
    (back : ∀ k s, answerB (run stepB inputs b k) = some s →
      ∃ r, answerA (run stepA inputs a k) = some r ∧ s = translate r) (s : β) :
    Returns stepB answerB inputs b s ↔
      ∃ r, Returns stepA answerA inputs a r ∧ s = translate r := by
  constructor
  · rintro ⟨k, answered⟩
    obtain ⟨r, first, same⟩ := back k s answered
    exact ⟨r, ⟨k, first⟩, same⟩
  · rintro ⟨r, ⟨k, answered⟩, rfl⟩
    exact ⟨k + 1, forth k r answered⟩

end Two

end ExanicCapture.Theory.Lockstep
