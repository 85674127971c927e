import AlgorithmTrainer.Lib.Program
import AlgorithmTrainer.Lib.Trace

/-!
# `Lib.Pool` — programs that run concurrently on one shared state

A `Pool` is a shared state and a program for each thread. A step is one call of one thread, with
whatever the environment chooses for it, or a control step that changes the pool from outside (a thread
is given a new program, time passes). The events of a run record every call with its reply, so the phase
a thread has reached in a protocol is a function of the history (`phase`).

`threads_follow` is the rule for such runs: an invariant of history and shared state, together with
the fact that the rest of every thread still follows its protocol from the phase it has reached.
-/

namespace Interaction

open Transition

/-- Programs over one shared state, one for each thread. -/
structure Pool (ι : Type) (S : Signature) (ε α σ : Type) where
  shared : σ
  thread : ι → Program S ε α

/-- What a step was: a call of a thread with the environment's choice and the reply, or a control step. -/
inductive Event (ι : Type) (S : Signature) (χ B : Type) where
  | call (i : ι) (c : χ) (x : Exchange S)
  | control (b : B)

namespace Pool

variable {ι χ σ B Φ ε α : Type} {S : Signature} [DecidableEq ι]

/-- The call a thread makes next, if it has not ended. -/
def call (V : Service S χ σ) (p : Pool ι S ε α σ) (i : ι) (c : χ) :
    Option (Event ι S χ B × Pool ι S ε α σ) :=
  match p.thread i with
  | .call q k =>
      let answer := V q c p.shared
      some (.call i c ⟨q, answer.1⟩, ⟨answer.2, Function.update p.thread i (k answer.1)⟩)
  | _ => none

/-- The steps of a pool: calls, and the control steps that `control` permits. -/
inductive Step (V : Service S χ σ) (control : B → Pool ι S ε α σ → Option (Pool ι S ε α σ)) :
    Pool ι S ε α σ → Event ι S χ B → Pool ι S ε α σ → Prop where
  | call {p : Pool ι S ε α σ} {i : ι} {q : S.Request} {k : S.Reply q → Program S ε α} {c : χ}
      (h : p.thread i = .call q k) :
      Step V control p (.call i c ⟨q, (V q c p.shared).1⟩)
        ⟨(V q c p.shared).2, Function.update p.thread i (k (V q c p.shared).1)⟩
  | control {p p' : Pool ι S ε α σ} {b : B} (h : control b p = some p') :
      Step V control p (.control b) p'

variable {V : Service S χ σ} {control : B → Pool ι S ε α σ → Option (Pool ι S ε α σ)}

theorem step_of_call {p p' : Pool ι S ε α σ} {i : ι} {c : χ} {e : Event ι S χ B}
    (h : p.call V i c = some (e, p')) : Step V control p e p' := by
  unfold call at h
  split at h
  · rename_i q k hq
    cases h
    exact .call hq
  · cases h

/-! ## Scripted runs -/

/-- Run a list of moves, each a thread with a choice or a control step: the events, latest first, and
    the pool they lead to. -/
def script (V : Service S χ σ) (control : B → Pool ι S ε α σ → Option (Pool ι S ε α σ)) :
    List (ι × χ ⊕ B) → List (Event ι S χ B) → Pool ι S ε α σ →
      Option (List (Event ι S χ B) × Pool ι S ε α σ)
  | [], h, p => some (h, p)
  | .inl (i, c) :: ms, h, p => (p.call V i c).bind fun x => script V control ms (x.1 :: h) x.2
  | .inr b :: ms, h, p => (control b p).bind fun p' => script V control ms (.control b :: h) p'

/-- Every move of a script meets a condition that can be evaluated. -/
def scriptMeets (V : Service S χ σ)
    (control : B → Pool ι S ε α σ → Option (Pool ι S ε α σ))
    (guard : List (Event ι S χ B) → Pool ι S ε α σ → Event ι S χ B → Prop)
    [∀ h p e, Decidable (guard h p e)] :
    List (ι × χ ⊕ B) → List (Event ι S χ B) → Pool ι S ε α σ → Bool
  | [], _, _ => true
  | .inl (i, c) :: ms, h, p => (p.call V i c).all fun x =>
      decide (guard h p x.1) && scriptMeets V control guard ms (x.1 :: h) x.2
  | .inr b :: ms, h, p => (control b p).all fun p' =>
      decide (guard h p (.control b)) && scriptMeets V control guard ms (.control b :: h) p'

variable {guard : List (Event ι S χ B) → Pool ι S ε α σ → Event ι S χ B → Prop}
  [∀ h p e, Decidable (guard h p e)]

/-- A script that goes through, and whose every move meets the condition, is a guarded run. -/
theorem guarded_of_script {p₀ p p' : Pool ι S ε α σ} {ms : List (ι × χ ⊕ B)}
    {h h' : List (Event ι S χ B)} (hrun : Guarded guard (Step V control) p₀ h p)
    (hs : script V control ms h p = some (h', p'))
    (hmeets : scriptMeets V control guard ms h p = true) :
    Guarded guard (Step V control) p₀ h' p' := by
  induction ms generalizing h p with
  | nil =>
      cases hs
      exact hrun
  | cons m ms ih =>
      match m with
      | .inl (i, c) =>
          simp only [script, Option.bind_eq_some_iff] at hs
          obtain ⟨⟨e, p₁⟩, hc, hs⟩ := hs
          simp only [scriptMeets, hc, Option.all_some, Bool.and_eq_true, decide_eq_true_eq]
            at hmeets
          refine ih (hrun.next hmeets.1 ?_) hs hmeets.2
          unfold call at hc
          split at hc
          · rename_i q k hq
            cases hc
            exact .call hq
          · cases hc
      | .inr b =>
          simp only [script, Option.bind_eq_some_iff] at hs
          obtain ⟨p₁, hc, hs⟩ := hs
          simp only [scriptMeets, hc, Option.all_some, Bool.and_eq_true, decide_eq_true_eq]
            at hmeets
          exact ih (hrun.next hmeets.1 (.control hc)) hs hmeets.2

theorem scriptMeets_true (ms : List (ι × χ ⊕ B)) (h : List (Event ι S χ B))
    (p : Pool ι S ε α σ) : scriptMeets V control (fun _ _ _ => True) ms h p = true := by
  induction ms generalizing h p with
  | nil => rfl
  | cons m ms ih =>
      match m with
      | .inl (i, c) =>
          simp only [scriptMeets, ih, decide_true, Bool.and_self]
          exact Option.all_true
      | .inr b =>
          simp only [scriptMeets, ih, decide_true, Bool.and_self]
          exact Option.all_true

/-- A script that goes through is a run. -/
theorem run_of_script {p₀ p p' : Pool ι S ε α σ} {ms : List (ι × χ ⊕ B)}
    {h h' : List (Event ι S χ B)} (hrun : Run (Step V control) p₀ h p)
    (hs : script V control ms h p = some (h', p')) : Run (Step V control) p₀ h' p' :=
  guarded_of_script hrun hs (scriptMeets_true ms h p)

/-! ## Phases -/

/-- The phase of thread `i` in a protocol after the history `h`: its own calls move it on, and a control
    step that resets the thread brings it back to the start. -/
def phase (A : Protocol S Φ) (start : Φ) (resets : B → ι → Bool) :
    List (Event ι S χ B) → ι → Φ
  | [], _ => start
  | .call j _ x :: h, i =>
      if i = j then A.next (phase A start resets h i) x.request x.reply
      else phase A start resets h i
  | .control b :: h, i => if resets b i then start else phase A start resets h i

variable {A : Protocol S Φ} {start : Φ} {resets : B → ι → Bool}

@[simp] theorem phase_nil (i : ι) :
    phase A start resets ([] : List (Event ι S χ B)) i = start := rfl
@[simp] theorem phase_call_self (h : List (Event ι S χ B)) (i : ι) (c : χ) (x : Exchange S) :
    phase A start resets (.call i c x :: h) i
      = A.next (phase A start resets h i) x.request x.reply := if_pos rfl

theorem phase_call_other {h : List (Event ι S χ B)} {i j : ι} {c : χ} {x : Exchange S}
    (hij : i ≠ j) : phase A start resets (.call j c x :: h) i = phase A start resets h i :=
  if_neg hij

/-- **Phase rule.** Let phases be assigned to the threads so that an invariant `J` of history, phases and
    shared state holds and every thread follows the protocol from its phase. Let every allowed call be
    answered as the protocol admits and keep `J` while the caller moves on, and let every control step
    leave a new assignment. Then there is such an assignment throughout a guarded run, whatever a label tells
    of its step beyond the event. -/
theorem phases_of_labelled {L : Type} {label : Pool ι S ε α σ → Event ι S χ B → L}
    {step : Pool ι S ε α σ → L → Pool ι S ε α σ → Prop}
    (hlabel : ∀ p l p', step p l p' → ∃ e, l = label p e ∧ Step V control p e p')
    (A : Protocol S Φ) (Q : Φ → Except ε α → Prop) (J : List L → (ι → Φ) → σ → Prop)
    {guard : List L → Pool ι S ε α σ → L → Prop} {p₀ p : Pool ι S ε α σ} {h : List L}
    (hrun : Guarded guard step p₀ h p)
    (h₀ : ∃ φ, J [] φ p₀.shared ∧ ∀ i, A.Follows Q (φ i) (p₀.thread i))
    (hcall : ∀ h p φ i c q, guard h p (label p (.call i c ⟨q, (V q c p.shared).1⟩)) → J h φ p.shared →
      A.allowed (φ i) q → A.admits (φ i) q (V q c p.shared).1 ∧
        J (label p (.call i c ⟨q, (V q c p.shared).1⟩) :: h)
          (Function.update φ i (A.next (φ i) q (V q c p.shared).1)) (V q c p.shared).2)
    (hcontrol : ∀ h p φ b p', guard h p (label p (.control b)) → J h φ p.shared →
      (∀ i, A.Follows Q (φ i) (p.thread i)) → control b p = some p' →
      ∃ φ', J (label p (.control b) :: h) φ' p'.shared ∧ ∀ i, A.Follows Q (φ' i) (p'.thread i)) :
    ∃ φ, J h φ p.shared ∧ ∀ i, A.Follows Q (φ i) (p.thread i) := by
  induction hrun with
  | start => exact h₀
  | @next h p l p' _ hg hs ih =>
      obtain ⟨φ, hJ, hF⟩ := ih
      obtain ⟨e, rfl, hstep⟩ := hlabel p l p' hs
      cases hstep with
      | @call i q k c hq =>
          have hi := hF i
          rw [hq] at hi
          obtain ⟨hadm, hJ'⟩ := hcall _ _ φ i c q hg hJ hi.1
          refine ⟨_, hJ', fun j => ?_⟩
          by_cases hji : j = i
          · subst hji
            simp only [Function.update_self]
            exact hi.2 _ hadm
          · simp only [Function.update_of_ne hji]
            exact hF j
      | control hb => exact hcontrol _ _ φ _ _ hg hJ hF hb

/-- The phase rule for runs whose labels are the events. -/
theorem phases_of_run (A : Protocol S Φ) (Q : Φ → Except ε α → Prop)
    (J : List (Event ι S χ B) → (ι → Φ) → σ → Prop)
    {guard : List (Event ι S χ B) → Pool ι S ε α σ → Event ι S χ B → Prop}
    {p₀ p : Pool ι S ε α σ} {h : List (Event ι S χ B)}
    (hrun : Guarded guard (Step V control) p₀ h p)
    (h₀ : ∃ φ, J [] φ p₀.shared ∧ ∀ i, A.Follows Q (φ i) (p₀.thread i))
    (hcall : ∀ h p φ i c q, guard h p (.call i c ⟨q, (V q c p.shared).1⟩) → J h φ p.shared →
      A.allowed (φ i) q → A.admits (φ i) q (V q c p.shared).1 ∧
        J (.call i c ⟨q, (V q c p.shared).1⟩ :: h)
          (Function.update φ i (A.next (φ i) q (V q c p.shared).1)) (V q c p.shared).2)
    (hcontrol : ∀ h p φ b p', guard h p (.control b) → J h φ p.shared →
      (∀ i, A.Follows Q (φ i) (p.thread i)) → control b p = some p' →
      ∃ φ', J (.control b :: h) φ' p'.shared ∧ ∀ i, A.Follows Q (φ' i) (p'.thread i)) :
    ∃ φ, J h φ p.shared ∧ ∀ i, A.Follows Q (φ i) (p.thread i) :=
  @phases_of_labelled ι χ σ B Φ ε α S _ V control (Event ι S χ B) (fun _ e => e) _
    (fun _ l _ hs => ⟨l, rfl, hs⟩) A Q J _ _ _ _ hrun h₀ hcall hcontrol

/-- **Thread rule.** In a guarded run, let every allowed call be answered as the protocol admits and keep the
    invariant `J`, and let every control step on threads that follow the protocol keep `J`, give the threads
    it resets a program that follows the protocol, and leave the others alone. Then `J` holds throughout, and
    what is left of each thread follows the protocol from the phase it has reached. -/
theorem threads_follow (A : Protocol S Φ) (start : Φ) (resets : B → ι → Bool)
    (Q : Φ → Except ε α → Prop) (J : List (Event ι S χ B) → σ → Prop)
    {guard : List (Event ι S χ B) → Pool ι S ε α σ → Event ι S χ B → Prop}
    {p₀ p : Pool ι S ε α σ} {h : List (Event ι S χ B)}
    (hrun : Guarded guard (Step V control) p₀ h p) (h₀ : J [] p₀.shared)
    (hstart : ∀ i, A.Follows Q start (p₀.thread i))
    (hcall : ∀ h p i c q, guard h p (.call i c ⟨q, (V q c p.shared).1⟩) → J h p.shared →
      A.allowed (phase A start resets h i) q →
      A.admits (phase A start resets h i) q (V q c p.shared).1 ∧
        J (.call i c ⟨q, (V q c p.shared).1⟩ :: h) (V q c p.shared).2)
    (hcontrol : ∀ h p b p', guard h p (.control b) → J h p.shared →
      (∀ i, A.Follows Q (phase A start resets h i) (p.thread i)) → control b p = some p' →
      J (.control b :: h) p'.shared ∧ ∀ i,
        (resets b i = true → A.Follows Q start (p'.thread i)) ∧
        (resets b i = false → p'.thread i = p.thread i)) :
    J h p.shared ∧ ∀ i, A.Follows Q (phase A start resets h i) (p.thread i) := by
  -- the phases are the ones that the history gives
  have hphases : ∃ φ, (φ = phase A start resets h ∧ J h p.shared) ∧
      ∀ i, A.Follows Q (φ i) (p.thread i) := by
    refine phases_of_run A Q (fun h φ s => φ = phase A start resets h ∧ J h s) hrun
      ⟨_, ⟨rfl, h₀⟩, hstart⟩ ?_ ?_
    · rintro h p _ i c q hg ⟨rfl, hJ⟩ hallowed
      obtain ⟨hadm, hJ'⟩ := hcall h p i c q hg hJ hallowed
      refine ⟨hadm, ?_, hJ'⟩
      funext j
      by_cases hji : j = i
      · subst hji
        rw [Function.update_self, phase_call_self]
      · rw [Function.update_of_ne hji, phase_call_other hji]
    · rintro h p _ b p' hg ⟨rfl, hJ⟩ hF hb
      obtain ⟨hJ', hthreads⟩ := hcontrol h p b p' hg hJ hF hb
      refine ⟨_, ⟨rfl, hJ'⟩, fun j => ?_⟩
      unfold phase
      split
      · rename_i hr; exact (hthreads j).1 hr
      · rename_i hr
        rw [(hthreads j).2 (Bool.eq_false_iff.mpr hr)]
        exact hF j
  obtain ⟨_, ⟨rfl, hJ⟩, hF⟩ := hphases
  exact ⟨hJ, hF⟩

/-! ## Watched runs -/

/-- The steps, where each label tells the shared state before the step, too. -/
def Watched (V : Service S χ σ) (control : B → Pool ι S ε α σ → Option (Pool ι S ε α σ))
    (p : Pool ι S ε α σ) (l : σ × Event ι S χ B) (p' : Pool ι S ε α σ) : Prop :=
  l.1 = p.shared ∧ Step V control p l.2 p'

/-- The phase rule for watched runs. -/
theorem phases_of_watched (A : Protocol S Φ) (Q : Φ → Except ε α → Prop)
    (J : List (σ × Event ι S χ B) → (ι → Φ) → σ → Prop)
    {guard : List (σ × Event ι S χ B) → Pool ι S ε α σ → σ × Event ι S χ B → Prop}
    {p₀ p : Pool ι S ε α σ} {h : List (σ × Event ι S χ B)}
    (hrun : Guarded guard (Watched V control) p₀ h p)
    (h₀ : ∃ φ, J [] φ p₀.shared ∧ ∀ i, A.Follows Q (φ i) (p₀.thread i))
    (hcall : ∀ h p φ i c q, guard h p (p.shared, .call i c ⟨q, (V q c p.shared).1⟩) → J h φ p.shared →
      A.allowed (φ i) q → A.admits (φ i) q (V q c p.shared).1 ∧
        J ((p.shared, .call i c ⟨q, (V q c p.shared).1⟩) :: h)
          (Function.update φ i (A.next (φ i) q (V q c p.shared).1)) (V q c p.shared).2)
    (hcontrol : ∀ h p φ b p', guard h p (p.shared, .control b) → J h φ p.shared →
      (∀ i, A.Follows Q (φ i) (p.thread i)) → control b p = some p' →
      ∃ φ', J ((p.shared, .control b) :: h) φ' p'.shared ∧ ∀ i, A.Follows Q (φ' i) (p'.thread i)) :
    ∃ φ, J h φ p.shared ∧ ∀ i, A.Follows Q (φ i) (p.thread i) :=
  @phases_of_labelled ι χ σ B Φ ε α S _ V control (σ × Event ι S χ B) (fun p e => (p.shared, e)) _
    (fun _ l _ hs => ⟨l.2, Prod.ext hs.1 rfl, hs.2⟩) A Q J _ _ _ _ hrun h₀ hcall hcontrol

/-- The program that thread `i` was given last, where `gives` tells what a control step gives. -/
def given (gives : B → ι → Option (Program S ε α)) (p₀ : Pool ι S ε α σ) (i : ι) :
    List (σ × Event ι S χ B) → Program S ε α
  | [] => p₀.thread i
  | (_, .call _ _ _) :: h => given gives p₀ i h
  | (_, .control b) :: h => (gives b i).getD (given gives p₀ i h)

/-- The calls of thread `i` since it was given that program, first call first. -/
def asked (gives : B → ι → Option (Program S ε α)) (i : ι) :
    List (σ × Event ι S χ B) → List (Program.Asked S χ σ)
  | [] => []
  | (s, .call j c x) :: h =>
      if j = i then asked gives i h ++ [⟨x.request, c, s⟩] else asked gives i h
  | (_, .control b) :: h => if (gives b i).isSome then [] else asked gives i h

/-- In a watched run each thread has come to where its calls, answered in the states they were made in,
    bring the program that it was given. -/
theorem plays_of_run {gives : B → ι → Option (Program S ε α)}
    {guard : List (σ × Event ι S χ B) → Pool ι S ε α σ → σ × Event ι S χ B → Prop}
    {p₀ p : Pool ι S ε α σ} {h : List (σ × Event ι S χ B)}
    (hgives : ∀ b p p' i, control b p = some p' → p'.thread i = (gives b i).getD (p.thread i))
    (hrun : Guarded guard (Watched V control) p₀ h p) (i : ι) :
    Program.Plays V (given gives p₀ i h) (asked gives i h) (p.thread i) := by
  induction hrun with
  | start => exact .done
  | @next h p l p' _ _ hs ih =>
      obtain ⟨s, e⟩ := l
      obtain ⟨rfl, hs⟩ := hs
      cases hs with
      | @call j q k c hq =>
          unfold given asked
          by_cases hji : j = i
          · subst hji
            rw [hq] at ih
            simpa only [if_true, Function.update_self] using ih.snoc c p.shared
          · simpa only [if_neg hji, Function.update_of_ne (Ne.symm hji)] using ih
      | @control p' b hb =>
          unfold given asked
          rw [hgives b p p' i hb]
          cases gives b i with
          | none => exact ih
          | some program => exact .done

/-- Run a list of moves as `script` does, as long as each meets the condition, and tell the state before
    each. -/
def watch (V : Service S χ σ) (control : B → Pool ι S ε α σ → Option (Pool ι S ε α σ))
    (guard : List (σ × Event ι S χ B) → Pool ι S ε α σ → σ × Event ι S χ B → Prop)
    [∀ h p e, Decidable (guard h p e)] :
    List (ι × χ ⊕ B) → List (σ × Event ι S χ B) → Pool ι S ε α σ →
      Option (List (σ × Event ι S χ B) × Pool ι S ε α σ)
  | [], h, p => some (h, p)
  | .inl (i, c) :: ms, h, p => (p.call V i c).bind fun x =>
      if guard h p (p.shared, x.1) then watch V control guard ms ((p.shared, x.1) :: h) x.2 else none
  | .inr b :: ms, h, p => (control b p).bind fun p' =>
      if guard h p (p.shared, .control b) then watch V control guard ms ((p.shared, .control b) :: h) p'
      else none

/-- What goes through is a guarded, watched run. -/
theorem guarded_of_watch {guard : List (σ × Event ι S χ B) → Pool ι S ε α σ → σ × Event ι S χ B → Prop}
    [∀ h p e, Decidable (guard h p e)] {p₀ p p' : Pool ι S ε α σ} {ms : List (ι × χ ⊕ B)}
    {h h' : List (σ × Event ι S χ B)} (hrun : Guarded guard (Watched V control) p₀ h p)
    (hs : watch V control guard ms h p = some (h', p')) :
    Guarded guard (Watched V control) p₀ h' p' := by
  induction ms generalizing h p with
  | nil =>
      cases hs
      exact hrun
  | cons m ms ih =>
      match m with
      | .inl (i, c) =>
          simp only [watch, Option.bind_eq_some_iff, Option.ite_none_right_eq_some] at hs
          obtain ⟨⟨e, p₁⟩, hc, hg, hs⟩ := hs
          refine ih (hrun.next hg ⟨rfl, ?_⟩) hs
          unfold call at hc
          split at hc
          · rename_i q k hq
            cases hc
            exact .call hq
          · cases hc
      | .inr b =>
          simp only [watch, Option.bind_eq_some_iff, Option.ite_none_right_eq_some] at hs
          obtain ⟨p₁, hc, hg, hs⟩ := hs
          exact ih (hrun.next hg ⟨rfl, .control hc⟩) hs

end Pool
end Interaction
