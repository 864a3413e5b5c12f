import Mathlib.Tactic.Lemma
import Mathlib.Data.List.Basic

/-!
# Runs of a transition system

A system is a step relation `σ → α → σ → Prop` over states and labels; a run is a finite sequence of
labelled steps. `Run.invariant` carries a property every step keeps to the end of a run; `exec` runs a
step function with refusals, and `run_of_exec` and `exists_run` read what it computes as a run.
-/

namespace StayConnect.Transition

variable {σ α : Type*} {step : σ → α → σ → Prop}

/-- A run of `step` through the labels of a list. -/
inductive Run (step : σ → α → σ → Prop) : σ → List α → σ → Prop where
  | nil (s : σ) : Run step s [] s
  | cons {s t u : σ} {a : α} {as : List α} :
    step s a t → Run step t as u → Run step s (a :: as) u

/-- A property that every step keeps holds at the end of every run. -/
lemma Run.invariant {P : σ → Prop} (keep : ∀ {s a t}, step s a t → P s → P t) {s t as} (run : Run step s as t) (h : P s) : P t := by
  induction run with
  | nil => exact h
  | cons st _ ih => exact ih (keep st h)

lemma Run.append {s t u as bs} (run : Run step s as t) (run' : Run step t bs u) : Run step s (as ++ bs) u := by
  induction run with
  | nil => exact run'
  | cons st _ ih => exact .cons st (ih run')

/-- A run through the labels of two lists passes a state between them. -/
lemma Run.split {s u as bs} (run : Run step s (as ++ bs) u) : ∃ t, Run step s as t ∧ Run step t bs u := by
  induction as generalizing s with
  | nil => exact ⟨s, .nil s, run⟩
  | cons a as ih =>
    cases run with
    | cons st rest =>
      obtain ⟨t, run₁, run₂⟩ := ih rest
      exact ⟨t, .cons st run₁, run₂⟩

lemma run_foldl {f} (s : σ) (as : List α) : Run (fun s a t => t = f s a) s as (as.foldl f s) := by
  induction as generalizing s with
  | nil => exact .nil s
  | cons a as ih => exact .cons rfl (ih (f s a))

/-- A step function with refusals, read as a step relation. -/
def ofOption (f : σ → α → Option σ) : σ → α → σ → Prop := fun s a t => f s a = some t

/-- Executing a list of labels with a step function with refusals. -/
def exec (f : σ → α → Option σ) : σ → List α → Option σ
  | s, [] => some s
  | s, a :: as => (f s a).bind fun t => exec f t as

lemma run_of_exec {f : σ → α → Option σ} {s t as} (h : exec f s as = some t) : Run (ofOption f) s as t := by
  induction as generalizing s with
  | nil => cases h; exact .nil _
  | cons a as ih =>
    obtain ⟨u, hu, ht⟩ := Option.bind_eq_some_iff.mp h
    exact .cons hu (ih ht)

/-- A check passed by the outcome of an execution is passed by the end of a run. -/
lemma exists_run {f : σ → α → Option σ} {s l} {P : σ → Bool}
    (h : (exec f s l).any P = true) : ∃ t, Run (ofOption f) s l t ∧ P t = true := by
  cases e : exec f s l with
  | none => simp [e] at h
  | some t =>
    rw [e] at h
    exact ⟨t, run_of_exec e, h⟩

/-- A check passed by a last step, taken after an execution. -/
lemma exists_last {f : σ → α → Option σ} {s l a} {P : σ → σ → Bool} (h : ((exec f s l).any fun t => (f t a).any (P t)) = true) :
    ∃ t u, Run (ofOption f) s l t ∧ f t a = some u ∧ P t u = true := by
  obtain ⟨t, run, ht⟩ := exists_run h
  cases e : f t a with
  | none => simp [e] at ht
  | some u =>
    rw [e] at ht
    exact ⟨t, u, run, e, ht⟩

lemma Run.mono {step'} (le : ∀ {s a t}, step s a t → step' s a t) {s t as} (run : Run step s as t) : Run step' s as t := by
  induction run with
  | nil => exact .nil _
  | cons st _ ih => exact .cons (le st) ih

/-- A total step function under a guard: executed with refusals, it runs under the guard. -/
lemma exists_guarded {f : σ → α → σ} {G : σ → α → Prop} [∀ s a, Decidable (G s a)] {s l} {P : σ → Bool}
    (h : (exec (fun s a => if G s a then some (f s a) else none) s l).any P = true) :
    ∃ t, Run (fun s a t => G s a ∧ t = f s a) s l t ∧ P t = true := by
  obtain ⟨t, run, ht⟩ := exists_run h
  refine ⟨t, run.mono ?_, ht⟩
  intro s a t step
  simp only [ofOption] at step
  split at step
  case isTrue hg => exact ⟨hg, (Option.some.inj step).symm⟩
  case isFalse => cases step

end StayConnect.Transition
