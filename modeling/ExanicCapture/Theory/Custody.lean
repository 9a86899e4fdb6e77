/-
# Theory.Custody -- resources acquired, used and released

A run is a list of effects on resources.  `run` replays it from the resources held
at the start: it stops at a resource acquired twice, or used or released without
being held, and otherwise ends in the resources held at the end.

A run that goes through has used only what it held (`used_held`), and for every
resource the acquisitions and releases balance with what is held before and after
(`balance`).
-/
import Mathlib.Data.List.Count
import Mathlib.Logic.Function.Basic
import Mathlib.Tactic.Common

namespace ExanicCapture.Theory

set_option autoImplicit false

universe u

variable {ρ : Type u} [DecidableEq ρ]

/-- What an event does to a resource. -/
inductive Effect (ρ : Type u) where
  | acquire (r : ρ)
  | use (r : ρ)
  | release (r : ρ)
deriving DecidableEq

namespace Custody

/-- One effect on the resources held. -/
def apply (held : ρ → Bool) : Effect ρ → Option (ρ → Bool)
  | .acquire r => if held r then none else some (Function.update held r true)
  | .use r => if held r then some held else none
  | .release r => if held r then some (Function.update held r false) else none

/-- A run of effects, as long as each is on a resource that is held, or not yet held
when it is acquired. -/
def run (held : ρ → Bool) : List (Effect ρ) → Option (ρ → Bool)
  | [] => some held
  | e :: es => (apply held e).bind (run · es)

variable {held held' : ρ → Bool} {es fs : List (Effect ρ)} {r : ρ}

theorem run_append (held : ρ → Bool) (es fs : List (Effect ρ)) :
    run held (es ++ fs) = (run held es).bind (run · fs) := by
  induction es generalizing held with
  | nil => rfl
  | cons e es ih =>
      rw [List.cons_append, run, run, Option.bind_assoc]
      exact congrArg _ (funext fun next => ih next)

theorem run_acquire (free : held r = false) :
    run held (.acquire r :: es) = run (Function.update held r true) es := by
  simp [run, apply, free]

theorem run_use (mine : held r = true) : run held (.use r :: es) = run held es := by
  simp [run, apply, mine]

theorem run_release (mine : held r = true) :
    run held (.release r :: es) = run (Function.update held r false) es := by
  simp [run, apply, mine]

theorem run_use_free (free : held r = false) : run held (.use r :: es) = none := by
  simp [run, apply, free]

/-- Effects that only use what is held. -/
theorem run_uses (uses : ∀ e ∈ es, ∃ r, e = .use r ∧ held r = true) (fs : List (Effect ρ)) :
    run held (es ++ fs) = run held fs := by
  induction es with
  | nil => rfl
  | cons e es ih =>
      obtain ⟨r, rfl, mine⟩ := uses e (List.mem_cons_self ..)
      rw [List.cons_append, run_use mine]
      exact ih fun e member => uses e (List.mem_cons_of_mem _ member)

/-! ## What a run that goes through tells -/

/-- What a run uses is held when it is used. -/
theorem used_held (goes : run held (es ++ .use r :: fs) = some held') :
    ∃ between, run held es = some between ∧ between r = true := by
  rw [run_append] at goes
  obtain ⟨between, before, after⟩ := Option.bind_eq_some_iff.1 goes
  refine ⟨between, before, ?_⟩
  by_contra free
  rw [run_use_free (by simpa using free)] at after
  cases after

theorem apply_balance {e : Effect ρ} (goes : apply held e = some held') (r : ρ) :
    [e].count (.acquire r) + (held r).toNat = [e].count (.release r) + (held' r).toNat := by
  cases e with
  | acquire q =>
      by_cases mine : held q = true
      · simp [apply, mine] at goes
      · simp only [apply, mine] at goes
        cases goes
        by_cases same : q = r
        · subst same
          simp [mine]
        · simp [same, Function.update_of_ne (Ne.symm same)]
  | use q =>
      by_cases mine : held q = true
      · simp only [apply, mine] at goes
        cases goes
        simp
      · simp [apply, mine] at goes
  | release q =>
      by_cases mine : held q = true
      · simp only [apply, mine] at goes
        cases goes
        by_cases same : q = r
        · subst same
          simp [mine]
        · simp [same, Function.update_of_ne (Ne.symm same)]
      · simp [apply, mine] at goes

/-- What is acquired is released, or still held in the end. -/
theorem balance (goes : run held es = some held') (r : ρ) :
    es.count (.acquire r) + (held r).toNat = es.count (.release r) + (held' r).toNat := by
  induction es generalizing held with
  | nil => cases goes; rfl
  | cons e es ih =>
      obtain ⟨next, first, rest⟩ := Option.bind_eq_some_iff.1 goes
      have one := apply_balance first r
      have others := ih rest
      have cons (f : Effect ρ) : (e :: es).count f = [e].count f + es.count f := by
        rw [← List.singleton_append, List.count_append]
      rw [cons, cons]
      omega

end Custody

end ExanicCapture.Theory
