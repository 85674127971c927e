/-!
# `Lib.Trace` — runs of a labelled transition system

A run is recorded as the list of its labels, **latest first**, so a quantity of the history ("the last
claim of this row") is a structural recursion on it. `Guarded` is a run every step of which met a
condition on the history, the state before the step and the label; `Run` is the run without one.
`Guarded.invariant` is the induction all safety arguments use.
-/

namespace Transition

variable {σ l : Type}

/-- The runs of `step` from `s₀` whose every step meets `guard`. -/
inductive Guarded (guard : List l → σ → l → Prop) (step : σ → l → σ → Prop) (s₀ : σ) :
    List l → σ → Prop where
  | start : Guarded guard step s₀ [] s₀
  | next {h : List l} {s : σ} {a : l} {s' : σ} : Guarded guard step s₀ h s → guard h s a →
      step s a s' → Guarded guard step s₀ (a :: h) s'

/-- All runs of `step` from `s₀`. -/
abbrev Run (step : σ → l → σ → Prop) (s₀ : σ) : List l → σ → Prop :=
  Guarded (fun _ _ _ => True) step s₀

variable {guard : List l → σ → l → Prop} {step : σ → l → σ → Prop} {s₀ : σ}

theorem Run.next {h : List l} {s s' : σ} {a : l} (hr : Run step s₀ h s) (hs : step s a s') :
    Run step s₀ (a :: h) s' := Guarded.next hr trivial hs

theorem Guarded.run {h : List l} {s : σ} (hr : Guarded guard step s₀ h s) : Run step s₀ h s := by
  induction hr with
  | start => exact .start
  | next _ _ hs ih => exact Run.next ih hs

/-- **Invariant rule.** What holds at the start and is kept by every guarded step holds at the end. -/
theorem Guarded.invariant {I : List l → σ → Prop} (h0 : I [] s₀)
    (hstep : ∀ h s a s', I h s → guard h s a → step s a s' → I (a :: h) s')
    {h : List l} {s : σ} (hr : Guarded guard step s₀ h s) : I h s := by
  induction hr with
  | start => exact h0
  | next _ hg hs ih => exact hstep _ _ _ _ ih hg hs

/-- A run continued by a run. -/
theorem Run.append {h₁ h₂ : List l} {s₁ s₂ : σ} (h1 : Run step s₀ h₁ s₁)
    (h2 : Run step s₁ h₂ s₂) : Run step s₀ (h₂ ++ h₁) s₂ := by
  induction h2 with
  | start => exact h1
  | next _ _ hs ih => exact Run.next ih hs

/-- A run can be cut at any point of its history. -/
theorem Run.split {h₁ h₂ : List l} {s : σ} (hr : Run step s₀ (h₁ ++ h₂) s) :
    ∃ s₁, Run step s₀ h₂ s₁ ∧ Run step s₁ h₁ s := by
  induction h₁ generalizing s with
  | nil => exact ⟨s, hr, .start⟩
  | cons a h₁ ih =>
      cases hr with
      | next hr _ hs =>
          obtain ⟨s₁, hr₂, hr₁⟩ := ih hr
          exact ⟨s₁, hr₂, Run.next hr₁ hs⟩

end Transition
