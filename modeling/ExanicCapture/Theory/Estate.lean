/-
# Theory.Estate -- custody, with the resources as a multiset

`Goes s es t` says that effects lead from holding `s` to holding `t`.  It composes
(`Goes.append`), and what else is held does not matter (`Goes.frame`), so a function is
described by what it does to the resources it is about.  `Goes.run` is the way back to
`Custody.run`.

A release may be refused, and then the resource stays held (`Goes.tryRelease`).
-/
import ExanicCapture.Theory.Custody
import Mathlib.Data.Multiset.AddSub
import Mathlib.Data.Multiset.UnionInter

namespace ExanicCapture.Theory

set_option autoImplicit false

universe u

namespace Custody

variable {ρ : Type u}

/-- Holding `s`, the effects go through, and `t` is held in the end. -/
inductive Goes : Multiset ρ → List (Effect ρ) → Multiset ρ → Prop where
  | nil (s : Multiset ρ) : Goes s [] s
  | acquire {s t : Multiset ρ} {r : ρ} {es : List (Effect ρ)} (free : r ∉ s)
      (rest : Goes (r ::ₘ s) es t) : Goes s (.acquire r :: es) t
  | use {s t : Multiset ρ} {r : ρ} {es : List (Effect ρ)} (mine : r ∈ s)
      (rest : Goes s es t) : Goes s (.use r :: es) t
  | release {s t : Multiset ρ} {r : ρ} {es : List (Effect ρ)}
      (rest : Goes s es t) : Goes (r ::ₘ s) (.release r :: es) t

/-- A release that only happens if it is not refused. -/
def tryRelease (ok : Bool) (r : ρ) : List (Effect ρ) := if ok then [.release r] else []

/-- What stays held if it is. -/
def refused (ok : Bool) (r : ρ) : Multiset ρ := if ok then 0 else {r}

theorem acquire_notMem_tryRelease (ok : Bool) (r q : ρ) : .acquire q ∉ tryRelease ok r := by
  cases ok
  · exact List.not_mem_nil
  · simp [tryRelease]

@[simp] theorem refused_eq_zero {ok : Bool} {r : ρ} : refused ok r = 0 ↔ ok = true := by
  cases ok
  · simp [refused]
  · simp [refused]

namespace Goes

variable {s t u : Multiset ρ} {es fs : List (Effect ρ)}

theorem done (same : s = t) : Goes s [] t := same ▸ .nil s

theorem ends (goes : Goes s es t) (same : t = u) : Goes s es u := same ▸ goes

theorem append (first : Goes s es t) (second : Goes t fs u) : Goes s (es ++ fs) u := by
  induction first with
  | nil s => exact second
  | acquire free _ ih => exact .acquire free (ih second)
  | use mine _ ih => exact .use mine (ih second)
  | release _ ih => exact .release (ih second)

theorem tryRelease {ok : Bool} {r : ρ} (rest : Goes (refused ok r + s) es t) :
    Goes (r ::ₘ s) (Custody.tryRelease ok r ++ es) t := by
  cases ok with
  | true =>
      have given : Goes s es t := by simpa [refused] using rest
      exact .release given
  | false =>
      have kept : Goes (r ::ₘ s) es t := by simpa [refused] using rest
      exact kept

/-- Effects that only use what is held. -/
theorem uses (mine : ∀ e ∈ es, ∃ r ∈ s, e = .use r) : Goes s es s := by
  induction es with
  | nil => exact .nil s
  | cons e es ih =>
      obtain ⟨r, held, rfl⟩ := mine e List.mem_cons_self
      exact .use held (ih fun e member => mine e (List.mem_cons_of_mem _ member))

/-- **What else is held does not matter**, as long as none of it is acquired again. -/
theorem frame (goes : Goes s es t) (apart : ∀ r, .acquire r ∈ es → r ∉ u) :
    Goes (s + u) es (t + u) := by
  induction goes with
  | nil s => exact .nil _
  | acquire free _ ih =>
      refine .acquire ?_ ?_
      · rw [Multiset.mem_add]
        exact fun held => held.elim free (apart _ List.mem_cons_self)
      · rw [← Multiset.cons_add]
        exact ih fun r member => apart r (List.mem_cons_of_mem _ member)
  | use mine _ ih =>
      exact .use (Multiset.mem_add.2 (.inl mine))
        (ih fun r member => apart r (List.mem_cons_of_mem _ member))
  | release _ ih =>
      rw [Multiset.cons_add]
      exact .release (ih fun r member => apart r (List.mem_cons_of_mem _ member))

/-- What is held was held before, or has been acquired. -/
theorem mem (goes : Goes s es t) {r : ρ} (held : r ∈ t) : r ∈ s ∨ .acquire r ∈ es := by
  induction goes with
  | nil s => exact .inl held
  | acquire _ _ ih =>
      rcases ih held with old | new
      · rcases Multiset.mem_cons.1 old with rfl | old
        · exact .inr List.mem_cons_self
        · exact .inl old
      · exact .inr (List.mem_cons_of_mem _ new)
  | use _ _ ih => exact (ih held).imp_right (List.mem_cons_of_mem _)
  | release _ ih => exact (ih held).imp (Multiset.mem_cons_of_mem ·) (List.mem_cons_of_mem _)

/-- Nothing is held twice. -/
theorem nodup (goes : Goes s es t) (once : s.Nodup) : t.Nodup := by
  induction goes with
  | nil s => exact once
  | acquire free _ ih => exact ih (Multiset.nodup_cons.2 ⟨free, once⟩)
  | use _ _ ih => exact ih once
  | release _ ih => exact ih (Multiset.nodup_cons.1 once).2

variable [DecidableEq ρ]

/-- **Effects that go through are a run.** -/
theorem run (goes : Goes s es t) (once : s.Nodup) :
    Custody.run (fun r => decide (r ∈ s)) es = some fun r => decide (r ∈ t) := by
  induction goes with
  | nil s => rfl
  | @acquire s _ r _ free _ ih =>
      have held : Function.update (fun q => decide (q ∈ s)) r true =
          fun q => decide (q ∈ r ::ₘ s) := by
        funext q
        by_cases same : q = r
        · simp [same]
        · simp [same]
      rw [run_acquire (by simpa using free), held]
      exact ih (Multiset.nodup_cons.2 ⟨free, once⟩)
  | use mine _ ih =>
      rw [run_use (by simpa using mine)]
      exact ih once
  | @release s _ r _ _ ih =>
      obtain ⟨other, once⟩ := Multiset.nodup_cons.1 once
      have held : Function.update (fun q => decide (q ∈ r ::ₘ s)) r false =
          fun q => decide (q ∈ s) := by
        funext q
        by_cases same : q = r
        · simp [same, other]
        · simp [same]
      rw [run_release (by simp), held]
      exact ih once

end Goes

end Custody

end ExanicCapture.Theory
