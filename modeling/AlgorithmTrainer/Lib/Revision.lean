import AlgorithmTrainer.Lib.Trace

/-!
# `Lib.Revision` — optimistic revision counters

Rows have a revision that every write raises, and a client may write a row on the condition that it still
has the revision the client has seen. `Revisions` says what that takes of a transition system: which steps
show a revision, which write or create a row, and which are writes that found the revision they expected.

`Revisions.fresh_iff` is what such a counter is good for. A conditional write that succeeds overwrites
nothing that its client has not seen, exactly if the row was not created in between: a row that is removed
and created again counts from the beginning.
-/

namespace Transition

variable {σ l κ : Type} {step : σ → l → σ → Prop}

/-- Keyed rows with revisions, under the steps of a transition system. -/
structure Revisions (κ : Type) (step : σ → l → σ → Prop) where
  /-- The row with this key is there, and has this revision. -/
  has : σ → κ → Int → Prop
  /-- The step shows somebody the revision of a row. -/
  shows : l → κ → Int → Prop
  /-- The step creates, changes or removes the row. -/
  writes : l → κ → Prop
  creates : l → κ → Prop
  /-- The step is a write that expected this revision, and found it. -/
  expects : l → κ → Int → Prop
  has_unique : ∀ {s k r r'}, has s k r → has s k r' → r' = r
  has_of_shows : ∀ {s e s' k r}, step s e s' → shows e k r → has s' k r
  has_of_expects : ∀ {s e s' k r}, step s e s' → expects e k r → has s k r
  writes_of_creates : ∀ {e k}, creates e k → writes e k
  /-- A row after a step was created by it, or raised, or was there as it is. -/
  next : ∀ {s e s' k r'}, step s e s' → has s' k r' →
    creates e k ∨ ∃ r, has s k r ∧ (r < r' ∨ (r' = r ∧ ¬ writes e k))

namespace Revisions

variable (M : Revisions κ step) {s₀ s s' : σ} {h h₁ h₂ : List l} {o e : l} {k : κ} {r r' : Int}

/-- While a row is not created, its revision does not fall, and stays only if nobody writes the row. -/
theorem grows (hrun : Run step s h s') (hnew : ∀ e ∈ h, ¬ M.creates e k) (hr : M.has s k r)
    (hr' : M.has s' k r') : r ≤ r' ∧ (r' = r → ∀ e ∈ h, ¬ M.writes e k) := by
  induction hrun generalizing r' with
  | start =>
      obtain rfl := M.has_unique hr hr'
      exact ⟨Int.le_refl _, fun _ _ he => absurd he List.not_mem_nil⟩
  | @next h s₁ e s' hrun _ hs ih =>
      rcases M.next hs hr' with hcreated | ⟨r₁, hr₁, hstep⟩
      · exact absurd hcreated (hnew e List.mem_cons_self)
      · obtain ⟨hle, hquiet⟩ := ih (fun e he => hnew e (List.mem_cons_of_mem _ he)) hr₁
        rcases hstep with hlt | ⟨rfl, hnot⟩
        · exact ⟨by omega, fun he => by omega⟩
        · refine ⟨hle, fun he e' he' => ?_⟩
          rcases List.mem_cons.mp he' with rfl | he'
          · exact hnot
          · exact hquiet he e' he'

/-- **What a conditional write overwrites.** Between a step that showed a row's revision and a later write
    that expected and found it, nobody wrote the row, exactly if nobody created it. -/
theorem fresh_iff (hrun : Run step s₀ (e :: h₁ ++ o :: h₂) s) (ho : M.shows o k r)
    (he : M.expects e k r) :
    (∀ x ∈ h₁, ¬ M.writes x k) ↔ ∀ x ∈ h₁, ¬ M.creates x k := by
  refine ⟨fun hw x hx hc => hw x hx (M.writes_of_creates hc), fun hnew => ?_⟩
  cases hrun with
  | next hrun _ hs =>
      obtain ⟨s₁, hbefore, hafter⟩ := Run.split hrun
      cases hbefore with
      | next _ _ hshown =>
          have hr := M.has_of_shows hshown ho
          exact (M.grows hafter hnew hr (M.has_of_expects hs he)).2 rfl

end Revisions
end Transition
