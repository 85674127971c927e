import AlgorithmTrainer.Lib.Pool

/-!
# `Lib.Scheduling` — a thread that is scheduled alone

What a thread of a pool does while no other is scheduled is what its program does when it is run alone. So a
thread can always be brought to its end, whatever the others are in the middle of, and `Program.run` tells
what it ends with and what it leaves.
-/

namespace Interaction

/-- This choice, and then those. -/
def first {χ : Type} (c : χ) (choices : Nat → χ) : Nat → χ
  | 0 => c
  | n + 1 => choices n

namespace Program

variable {S : Signature} {χ σ ε α : Type} {V : Service S χ σ}

/-- The program that has ended with this outcome. -/
def ended : Except ε α → Program S ε α
  | .ok a => .ret a
  | .error e => .raise e

/-- A run has used up the first choices. -/
theorem run_choices (p : Program S ε α) (w : World χ σ) :
    ∃ m, (p.run V w).2.choices = fun n => w.choices (n + m) := by
  induction p generalizing w with
  | ret a => exact ⟨0, rfl⟩
  | raise e => exact ⟨0, rfl⟩
  | call q k ih =>
      obtain ⟨m, hm⟩ := ih _ (w.advance (V q (w.choices 0) w.state).2)
      exact ⟨m + 1, hm⟩

end Program

namespace Pool

open Transition

variable {ι χ σ B ε α : Type} {S : Signature} [DecidableEq ι] {V : Service S χ σ}
  {control : B → Pool ι S ε α σ → Option (Pool ι S ε α σ)}

/-- A call of the thread under one of these choices. -/
def CallOf (i : ι) (choices : Nat → χ) (l : σ × Event ι S χ B) : Prop :=
  ∃ n x, l.2 = .call i (choices n) x

/-- **Scheduling rule.** A thread that is scheduled alone runs its program to the end. -/
theorem run_scheduled {p₀ p : Pool ι S ε α σ} {h : List (σ × Event ι S χ B)}
    (hrun : Run (Watched V control) p₀ h p) (i : ι) (choices : Nat → χ) :
    ∃ h' p', Run (Watched V control) p₀ (h' ++ h) p' ∧ (∀ l ∈ h', CallOf i choices l) ∧
      p'.thread = Function.update p.thread i
        (.ended ((p.thread i).run V ⟨choices, p.shared⟩).1) ∧
      p'.shared = ((p.thread i).run V ⟨choices, p.shared⟩).2.state := by
  generalize hprogram : p.thread i = program
  induction program generalizing p h choices with
  | ret a =>
      refine ⟨[], p, hrun, fun _ hl => (by cases hl), ?_, rfl⟩
      rw [Program.run_ret, Program.ended, ← hprogram, Function.update_eq_self]
  | raise e =>
      refine ⟨[], p, hrun, fun _ hl => (by cases hl), ?_, rfl⟩
      rw [Program.run_raise, Program.ended, ← hprogram, Function.update_eq_self]
  | call q k ih =>
      have hstep : Watched V control p (p.shared, .call i (choices 0) ⟨q, (V q (choices 0) p.shared).1⟩)
          ⟨(V q (choices 0) p.shared).2, Function.update p.thread i (k (V q (choices 0) p.shared).1)⟩ :=
        ⟨rfl, .call hprogram⟩
      obtain ⟨h', p', hrun', hcalls, hthread, hshared⟩ :=
        ih _ (hrun.next hstep) (fun n => choices (n + 1)) (Function.update_self ..)
      refine ⟨h' ++ [_], p', by rwa [List.append_assoc, List.singleton_append], fun l hl => ?_, ?_, hshared⟩
      · rcases List.mem_append.mp hl with hl | hl
        · obtain ⟨n, x, hx⟩ := hcalls l hl
          exact ⟨n + 1, x, hx⟩
        · rw [List.mem_singleton.mp hl]
          exact ⟨0, _, rfl⟩
      · rw [hthread, Function.update_idem]
        rfl

end Pool
end Interaction
