/-
  Runs of a transition system whose steps are labelled.

  The step relation is a parameter, and so are the states and the labels.  A label is what can be
  seen of a step from outside: a command, an event, a message.  So a run can be asked two things:
  which states it comes to, and what its labels were.

  1. **Run** -- finitely many steps, one after the other, and the labels they carry.

  2. **Invariants** -- what every step preserves, a run preserves (`invariant`).  A condition on the
     steps is put into the system itself (`Along`), so that one rule serves for all runs and for
     those whose steps meet a condition.

  3. **Folds** -- an observation that every step changes as its label says is, after a run, the fold
     of the labels (`foldl`).  That is how what is left in a state is compared with what was asked
     for.
-/

namespace Lib

variable {σ ι : Type}

/-- The steps labelled `is` lead from `s` to `s'`. -/
inductive Run (step : σ → ι → σ → Prop) : σ → List ι → σ → Prop where
  | nil (s : σ) : Run step s [] s
  | cons {s s₁ s' : σ} {i : ι} {is : List ι} (h : step s i s₁) (h' : Run step s₁ is s') :
      Run step s (i :: is) s'

/-- The steps that meet a condition on the state before them and on their label. -/
def Along (step : σ → ι → σ → Prop) (C : σ → ι → Prop) (s : σ) (i : ι) (s' : σ) : Prop :=
  step s i s' ∧ C s i

namespace Run

variable {step : σ → ι → σ → Prop} {s s₁ s' : σ}

/-- A single step is a run. -/
theorem one {i : ι} (h : step s i s') : Run step s [i] s' := .cons h (.nil s')

/-- What every step preserves holds at the end of a run. -/
theorem invariant {I : σ → Prop} (hI : ∀ s i s', I s → step s i s' → I s') {is : List ι}
    (h : Run step s is s') (hs : I s) : I s' := by
  induction h with
  | nil _ => exact hs
  | cons hstep _ ih => exact ih (hI _ _ _ hs hstep)

/-- What every step folds its label into, a run folds its labels into. -/
theorem foldl {β : Type} {f : σ → β} {g : β → ι → β}
    (hf : ∀ s i s', step s i s' → f s' = g (f s) i) {is : List ι} (h : Run step s is s') :
    f s' = is.foldl g (f s) := by
  induction h with
  | nil _ => rfl
  | cons hstep _ ih => rw [ih, hf _ _ _ hstep, List.foldl_cons]

end Run

end Lib
