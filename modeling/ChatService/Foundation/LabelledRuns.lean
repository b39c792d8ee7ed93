import Mathlib.Data.List.Basic
import Mathlib.Tactic.TypeStar

/-!
# Runs of steps that emit labels

A step relation `step s l s'` whose steps emit a list of labels each, and its runs, which emit the labels of
their steps in order.

* `Run.trans`, `Run.single` — runs compose.
* `Run.project` — a simulation: if every step of one relation, seen through a map of the states and a
  filter on the labels, is a run of another relation, then so is every run.
* `Run.split` — a label that steps emit first or not at all marks a boundary between two steps.
-/

namespace LabelledRuns

variable {S T L : Type} {step : S → List L → S → Prop}

/-- A run, with everything it emits. -/
inductive Run (step : S → List L → S → Prop) : S → List L → S → Prop where
  | refl (s : S) : Run step s [] s
  | step {s m s' : S} {l l' : List L} : step s l m → Run step m l' s' → Run step s (l ++ l') s'

theorem Run.single {s s' : S} {l : List L} (h : step s l s') : Run step s l s' := by
  have hrun := Run.step h (.refl s')
  rwa [List.append_nil] at hrun

theorem Run.trans {s m s' : S} {l l' : List L} (h : Run step s l m) (h' : Run step m l' s') :
    Run step s (l ++ l') s' := by
  induction h with
  | refl s => exact h'
  | @step s₁ s₂ s₃ l₁ l₂ hstep _ ih =>
    rw [List.append_assoc]
    exact .step hstep (ih h')

/-- **Simulation.** -/
theorem Run.project {step' : T → List L → T → Prop} (f : S → T) (p : L → Bool)
    (hstep : ∀ s l s', step s l s' → Run step' (f s) (l.filter p) (f s')) {s s' : S} {l : List L}
    (h : Run step s l s') : Run step' (f s) (l.filter p) (f s') := by
  induction h with
  | refl s => exact .refl (f s)
  | @step s₁ s₂ s₃ l₁ l₂ h₁ _ ih =>
    rw [List.filter_append]
    exact (hstep _ _ _ h₁).trans ih

/-- **Boundaries.**  Where a label is emitted that steps emit first or not at all, the run splits. -/
theorem Run.split {x : L} (hfirst : ∀ s l s', step s l s' → ∀ before after, l = before ++ x :: after →
    before = []) {s s' : S} {l : List L} (h : Run step s l s') :
    ∀ {before after : List L}, l = before ++ x :: after →
      ∃ m, Run step s before m ∧ Run step m (x :: after) s' := by
  induction h with
  | refl s =>
    intro before after hl
    exact absurd hl.symm (by simp)
  | @step s₁ s₂ s₃ l₁ l₂ hstep hrest ih =>
    intro before after hl
    rcases List.append_eq_append_iff.mp hl with ⟨c, hbefore, hl₂⟩ | ⟨c, hl₁, hafter⟩
    · -- the label is emitted after this step
      obtain ⟨m, hm, hm'⟩ := ih hl₂
      rw [hbefore]
      exact ⟨m, .step hstep hm, hm'⟩
    · cases c with
      | nil =>
        -- right after this step
        rw [List.append_nil] at hl₁
        rw [List.nil_append] at hafter
        rw [hafter, ← hl₁]
        exact ⟨s₂, .single hstep, hrest⟩
      | cons y c =>
        -- by this step, so it is what the step emits first
        obtain ⟨rfl, rfl⟩ : x = y ∧ after = c ++ l₂ := by simpa using hafter
        have hnil := hfirst _ _ _ hstep before c hl₁
        subst hnil
        rw [List.nil_append] at hl₁
        refine ⟨s₁, .refl s₁, ?_⟩
        rw [← List.cons_append, ← hl₁]
        exact .step hstep hrest

end LabelledRuns
