import AlgorithmTrainer.Lib.Program

/-!
# `Lib.Handling` — requests that are answered by programs

A program may be written against a service whose answers are worked out by programs of their own.
`Program.handle` puts those programs in the place of the requests, so that what was one call becomes all the
calls that answering it takes, and may be interleaved there; `attempt` is for a handler whose exception is
part of the answer.

`Follows.handle` is the rule for it: a program that keeps a protocol of the requests keeps a protocol of the
calls below them, if each handler goes from a related phase to a related phase.
-/

namespace Interaction

namespace Program

variable {S : Signature} {ε α : Type}

/-- The program with its outcome as its value, so that nothing is raised. -/
def attempt : Program S ε α → Program S ε (Except ε α)
  | ret a => ret (.ok a)
  | raise e => ret (.error e)
  | call q k => call q fun r => (k r).attempt

theorem run_attempt {χ σ : Type} {V : Service S χ σ} (p : Program S ε α) (w : World χ σ) :
    p.attempt.run V w = (.ok (p.run V w).1, (p.run V w).2) := by
  induction p generalizing w with
  | ret a => rfl
  | raise e => rfl
  | call q k ih => exact ih _ _

end Program

namespace Protocol

variable {S T : Signature} {Φ Ψ ε α : Type} {A : Protocol S Φ} {Q : Φ → Except ε α → Prop}

/-- Any outcome, in any phase. -/
def AnyOutcome (_ : Φ) (_ : Except ε α) : Prop := True

/-- An outcome that is kept as a value satisfies what the outcome did. -/
theorem Follows.attempt {φ : Φ} {p : Program S ε α} (hp : A.Follows Q φ p) :
    A.Follows (fun φ (o : Except ε (Except ε α)) => ∃ o', o = .ok o' ∧ Q φ o') φ p.attempt := by
  induction p generalizing φ with
  | ret a => exact ⟨_, rfl, hp⟩
  | raise e => exact ⟨_, rfl, hp⟩
  | call q k ih => exact ⟨hp.1, fun r hr => ih r (hp.2 r hr)⟩

/-- **Handler rule.** -/
theorem Follows.handle {B : Protocol T Ψ} {R : Φ → Ψ → Prop}
    {f : (q : S.Request) → Program T ε (S.Reply q)}
    (hf : ∀ φ ψ q, R φ ψ → A.allowed φ q →
      B.Follows (fun ψ' o => ∃ r, o = .ok r ∧ A.admits φ q r ∧ R (A.next φ q r) ψ') ψ (f q))
    {φ : Φ} {ψ : Ψ} {p : Program S ε α} (hR : R φ ψ) (hp : A.Follows Q φ p) :
    B.Follows (fun ψ o => ∃ φ, R φ ψ ∧ Q φ o) ψ (p.handle f) := by
  induction p generalizing φ ψ with
  | ret a => exact ⟨φ, hR, hp⟩
  | raise e => exact ⟨φ, hR, hp⟩
  | call q k ih =>
      refine (hf φ ψ q hR hp.1).bind (fun ψ' r h => ?_) fun ψ' e h => ?_
      · obtain ⟨_, ho, hadmits, hR'⟩ := h
        cases ho
        exact ih r hR' (hp.2 r hadmits)
      · obtain ⟨_, ho, -⟩ := h
        cases ho

end Protocol
end Interaction
