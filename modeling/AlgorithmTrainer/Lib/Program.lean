import Mathlib.Logic.Function.Basic

/-!
# `Lib.Program` — programs that call a service, and what their calls may do

A `Program` is a tree of requests to a service: at each node it asks for something and continues with
whatever reply it gets, until it returns a value or raises an exception. The tree says nothing about
the service, so the same program is run alone (`run`), run with a log of its calls (`log`), or
interleaved with other programs on one shared state (`Lib.Pool`).

A `Protocol` is the discipline a program keeps: an automaton that reads the program's own calls, says
which request is allowed in which phase, and may assume something of the replies. `Follows` is the
judgement that every call of a program is allowed, whatever admitted replies come back; `Follows.bind`
composes it, and `Follows.run` and its companions carry it to whole runs.

An `Observation` relates two runs: `Indist` is the judgement that two programs make the same calls as
long as the replies they get are related, which `Indist.run` carries to two runs from related states.
-/

namespace Interaction

/-- What a program may ask for, and the type of the reply to each request. -/
structure Signature where
  Request : Type
  Reply : Request → Type

/-- A program over the signature `S` that returns an `α` or raises an `ε`. -/
inductive Program (S : Signature) (ε α : Type) : Type where
  | ret (a : α)
  | raise (e : ε)
  | call (q : S.Request) (k : S.Reply q → Program S ε α)

/-- One call of a program: what it asked and what it was told. -/
structure Exchange (S : Signature) where
  request : S.Request
  reply : S.Reply request

/-- The requests of either of two signatures. -/
@[reducible] def Signature.sum (S T : Signature) : Signature where
  Request := S.Request ⊕ T.Request
  Reply := Sum.elim S.Reply T.Reply

/-- The call, if it is one of the second signature. -/
def Exchange.inr? {S T : Signature} : Exchange (S.sum T) → Option (Exchange T)
  | ⟨.inl _, _⟩ => none
  | ⟨.inr q, r⟩ => some ⟨q, r⟩

/-- How a service answers: the reply and the new state, for each choice `χ` the environment makes. -/
abbrev Service (S : Signature) (χ σ : Type) := (q : S.Request) → χ → σ → S.Reply q × σ

/-- Two services side by side, each with a state of its own. -/
def Service.sum {S T : Signature} {χ σ τ : Type} (V : Service S χ σ) (W : Service T χ τ) :
    Service (S.sum T) χ (σ × τ)
  | .inl q, c, s => ((V q c s.1).1, (V q c s.1).2, s.2)
  | .inr q, c, s => ((W q c s.2).1, s.1, (W q c s.2).2)

/-- A state together with the environment's choices for the calls to come. -/
structure World (χ σ : Type) where
  choices : Nat → χ
  state : σ

/-- The world after one call that used the first choice and left the state `s`. -/
def World.advance {χ σ : Type} (w : World χ σ) (s : σ) : World χ σ :=
  ⟨fun n => w.choices (n + 1), s⟩

@[simp] theorem World.advance_state {χ σ : Type} (w : World χ σ) (s : σ) :
    (w.advance s).state = s := rfl

namespace Program

variable {S : Signature} {ε α β χ σ : Type}

def bind : Program S ε α → (α → Program S ε β) → Program S ε β
  | ret a, f => f a
  | raise e, _ => raise e
  | call q k, f => call q fun r => (k r).bind f

def tryCatch : Program S ε α → (ε → Program S ε α) → Program S ε α
  | ret a, _ => ret a
  | raise e, h => h e
  | call q k, h => call q fun r => (k r).tryCatch h

/-- A single request. -/
def ask (q : S.Request) : Program S ε (S.Reply q) := call q ret

instance : Monad (Program S ε) where
  pure := ret
  bind := bind

instance : MonadExceptOf ε (Program S ε) where
  throw := raise
  tryCatch := tryCatch

@[simp] theorem pure_eq (a : α) : (pure a : Program S ε α) = ret a := rfl
@[simp] theorem throw_eq (e : ε) : (throw e : Program S ε α) = raise e := rfl
@[simp] theorem ret_bind (a : α) (f : α → Program S ε β) : ret a >>= f = f a := rfl
@[simp] theorem raise_bind (e : ε) (f : α → Program S ε β) :
    (raise e : Program S ε α) >>= f = raise e := rfl
@[simp] theorem call_bind (q : S.Request) (k : S.Reply q → Program S ε α)
    (f : α → Program S ε β) : call q k >>= f = call q fun r => k r >>= f := rfl
@[simp] theorem ask_bind (q : S.Request) (f : S.Reply q → Program S ε β) :
    @Bind.bind (Program S ε) _ (no_index (S.Reply q)) β (ask q) f = call q f := rfl
@[simp] theorem tryCatch_ret (a : α) (h : ε → Program S ε α) :
    MonadExcept.tryCatch (ret a) h = ret a := rfl
@[simp] theorem tryCatch_raise (e : ε) (h : ε → Program S ε α) :
    MonadExcept.tryCatch (raise e) h = h e := rfl
@[simp] theorem tryCatch_call (q : S.Request) (k : S.Reply q → Program S ε α)
    (h : ε → Program S ε α) :
    MonadExcept.tryCatch (call q k) h = call q fun r => MonadExcept.tryCatch (k r) h := rfl

/-! ## Running a program alone -/

/-- Run a program to its end: the outcome and the world it leaves. -/
def run (V : Service S χ σ) : Program S ε α → World χ σ → Except ε α × World χ σ
  | ret a, w => (.ok a, w)
  | raise e, w => (.error e, w)
  | call q k, w =>
      let answer := V q (w.choices 0) w.state
      (k answer.1).run V (w.advance answer.2)

/-- The calls of a run, first call first. -/
def log (V : Service S χ σ) : Program S ε α → World χ σ → List (Exchange S)
  | ret _, _ => []
  | raise _, _ => []
  | call q k, w =>
      let answer := V q (w.choices 0) w.state
      ⟨q, answer.1⟩ :: (k answer.1).log V (w.advance answer.2)

/-- The program may ask `q`, whatever it is answered. -/
inductive Asks (q : S.Request) : Program S ε α → Prop where
  | here {k : S.Reply q → Program S ε α} : Asks q (.call q k)
  | later {q' : S.Request} {k : S.Reply q' → Program S ε α} (r : S.Reply q') (h : Asks q (k r)) :
      Asks q (.call q' k)

variable {V : Service S χ σ}

@[simp] theorem run_ret (a : α) (w : World χ σ) : (ret a : Program S ε α).run V w = (.ok a, w) := rfl
@[simp] theorem run_raise (e : ε) (w : World χ σ) :
    (raise e : Program S ε α).run V w = (.error e, w) := rfl

theorem run_call (q : S.Request) (k : S.Reply q → Program S ε α) (w : World χ σ) :
    (call q k).run V w =
      (k (V q (w.choices 0) w.state).1).run V (w.advance (V q (w.choices 0) w.state).2) := rfl

/-- **Invariant rule.** What every request keeps, a run keeps. -/
theorem run_keeps {I : σ → Prop} (hV : ∀ q c s, I s → I (V q c s).2) (p : Program S ε α) {w : World χ σ}
    (hI : I w.state) : I (p.run V w).2.state := by
  induction p generalizing w with
  | ret a => exact hI
  | raise e => exact hI
  | call q k ih => exact ih _ (w := w.advance _) (hV q _ _ hI)

/-- **Other choices.** Where each call is answered as it would be under another choice, a run is one under
    other choices. -/
theorem run_rechosen {R : χ → χ → Prop} {g : S.Request → χ → σ → χ} (hR : ∀ q c s, R c (g q c s))
    (hrefl : ∀ c, R c c) (p : Program S ε α) (w : World χ σ) :
    ∃ choices : Nat → χ, (∀ n, R (w.choices n) (choices n)) ∧
      (p.run (fun q c s => V q (g q c s) s) w).1 = (p.run V ⟨choices, w.state⟩).1 ∧
      (p.run (fun q c s => V q (g q c s) s) w).2.state = (p.run V ⟨choices, w.state⟩).2.state := by
  induction p generalizing w with
  | ret a => exact ⟨w.choices, fun _ => hrefl _, rfl, rfl⟩
  | raise e => exact ⟨w.choices, fun _ => hrefl _, rfl, rfl⟩
  | call q k ih =>
      obtain ⟨choices, hchoices, hresult, hstate⟩ := ih (V q (g q (w.choices 0) w.state) w.state).1
        (w.advance (V q (g q (w.choices 0) w.state) w.state).2)
      refine ⟨fun | 0 => g q (w.choices 0) w.state | n + 1 => choices n, fun n => ?_, hresult, hstate⟩
      cases n with
      | zero => exact hR q _ _
      | succ n => exact hchoices n

/-- A sequenced program runs its first part, and goes on where that part returned. -/
theorem run_bind (p : Program S ε α) (f : α → Program S ε β) (w : World χ σ) :
    (p >>= f).run V w =
      match p.run V w with
      | (.ok a, w') => (f a).run V w'
      | (.error e, w') => (.error e, w') := by
  induction p generalizing w with
  | ret a => rfl
  | raise e => rfl
  | call q k ih => exact ih _ _

/-- A guarded program runs, and goes on with the handler where it raised. -/
theorem run_tryCatch (p : Program S ε α) (h : ε → Program S ε α) (w : World χ σ) :
    (MonadExcept.tryCatch p h).run V w =
      match p.run V w with
      | (.ok a, w') => (.ok a, w')
      | (.error e, w') => (h e).run V w' := by
  induction p generalizing w with
  | ret a => rfl
  | raise e => rfl
  | call q k ih => exact ih _ _

/-- The log of a sequenced program: that of its first part, and then of what it goes on with. -/
theorem log_bind (p : Program S ε α) (f : α → Program S ε β) (w : World χ σ) :
    (p >>= f).log V w =
      p.log V w ++ match p.run V w with
        | (.ok a, w') => (f a).log V w'
        | (.error _, _) => [] := by
  induction p generalizing w with
  | ret a => rfl
  | raise e => rfl
  | call q k ih => exact congrArg (_ :: ·) (ih _ _)

/-! ### Calls of a larger signature -/

/-- The program, where there is a second service that it does not call. -/
def inl {T : Signature} : Program S ε α → Program (S.sum T) ε α
  | ret a => ret a
  | raise e => raise e
  | call q k => .call (.inl q) fun r => (k r).inl

variable {T : Signature} {τ : Type} {W : Service T χ τ}

theorem inl_bind (p : Program S ε α) (f : α → Program S ε β) :
    (p >>= f).inl (T := T) = p.inl >>= fun a => (f a).inl := by
  induction p with
  | ret a => rfl
  | raise e => rfl
  | call q k ih => exact congrArg (Program.call _) (funext ih)

/-- It runs as it does alone, and leaves the other state as it is. -/
theorem run_inl (p : Program S ε α) (w : World χ (σ × τ)) :
    (p.inl (T := T)).run (V.sum W) w =
      ((p.run V ⟨w.choices, w.state.1⟩).1, ⟨(p.run V ⟨w.choices, w.state.1⟩).2.choices,
        (p.run V ⟨w.choices, w.state.1⟩).2.state, w.state.2⟩) := by
  induction p generalizing w with
  | ret a => rfl
  | raise e => rfl
  | call q k ih => exact ih _ _

/-- None of its calls is one of the second service. -/
theorem log_inl (p : Program S ε α) (w : World χ (σ × τ)) :
    ((p.inl (T := T)).log (V.sum W) w).filterMap Exchange.inr? = [] := by
  induction p generalizing w with
  | ret a => rfl
  | raise e => rfl
  | call q k ih => exact ih _ _

/-! ### Calls carried out by programs -/

/-- The program, where each call is carried out by a program over another signature. -/
def handle (f : (q : S.Request) → Program T ε (S.Reply q)) : Program S ε α → Program T ε α
  | ret a => ret a
  | raise e => raise e
  | call q k => f q >>= fun r => (k r).handle f

/-! ### The states in which a program makes its calls -/

/-- A call, with what decides its answer: the environment's choice, and the state before it. -/
structure Asked (S : Signature) (χ σ : Type) where
  request : S.Request
  choice : χ
  state : σ

/-- The program, having made these calls in these states, first call first, is left with the second
    program. Between its calls others may change the state. -/
inductive Plays (V : Service S χ σ) : Program S ε α → List (Asked S χ σ) → Program S ε α → Prop where
  | done {p : Program S ε α} : Plays V p [] p
  | call {q : S.Request} {k : S.Reply q → Program S ε α} {c : χ} {s : σ} {l : List (Asked S χ σ)}
      {p : Program S ε α} (h : Plays V (k (V q c s).1) l p) : Plays V (.call q k) (⟨q, c, s⟩ :: l) p

/-- One more call. -/
theorem Plays.snoc {p : Program S ε α} {l : List (Asked S χ σ)} {q : S.Request}
    {k : S.Reply q → Program S ε α} (h : Plays V p l (.call q k)) (c : χ) (s : σ) :
    Plays V p (l ++ [⟨q, c, s⟩]) (k (V q c s).1) := by
  generalize hp' : Program.call q k = p' at h
  induction h with
  | done =>
      subst hp'
      exact .call .done
  | call _ ih => exact .call (ih hp')

theorem plays_ret {a : α} {l : List (Asked S χ σ)} {p : Program S ε α}
    (h : Plays V (ret a) l p) : l = [] ∧ p = ret a := by
  cases h
  exact ⟨rfl, rfl⟩

/-- A program that calls something first. -/
theorem plays_call {q : S.Request} {k : S.Reply q → Program S ε α} {l : List (Asked S χ σ)} {a : α}
    (h : Plays V (.call q k) l (ret a)) :
    ∃ c s l', l = ⟨q, c, s⟩ :: l' ∧ Plays V (k (V q c s).1) l' (ret a) := by
  cases h with
  | call h => exact ⟨_, _, _, rfl, h⟩

/-- A sequenced program that has returned: its first part returned, and then the rest did. -/
theorem plays_bind {p : Program S ε α} {f : α → Program S ε β} {l : List (Asked S χ σ)} {b : β}
    (h : Plays V (p >>= f) l (ret b)) :
    ∃ l₁ l₂ a, l = l₁ ++ l₂ ∧ Plays V p l₁ (ret a) ∧ Plays V (f a) l₂ (ret b) := by
  induction p generalizing l with
  | ret a => exact ⟨[], l, a, rfl, .done, h⟩
  | raise e => cases h
  | call q k ih =>
      have hcall : Plays V (.call q fun r => k r >>= f) l (ret b) := h
      obtain ⟨c, s, l', rfl, hrest⟩ := plays_call hcall
      obtain ⟨l₁, l₂, a, rfl, h₁, h₂⟩ := ih _ hrest
      exact ⟨⟨q, c, s⟩ :: l₁, l₂, a, rfl, .call h₁, h₂⟩

end Program

/-! ## Protocols -/

/-- A discipline on a program's calls, read off the calls themselves: the requests `allowed` in a
    phase, the replies the program may assume (`admits`), and the phase after a call. -/
structure Protocol (S : Signature) (Φ : Type) where
  allowed : Φ → S.Request → Prop
  admits : Φ → (q : S.Request) → S.Reply q → Prop
  next : Φ → (q : S.Request) → S.Reply q → Φ

namespace Protocol

variable {S : Signature} {Φ ε α β χ σ : Type}

/-- The protocol without phases: these requests, any reply. -/
def only (allowed : S.Request → Prop) : Protocol S Unit where
  allowed _ := allowed
  admits _ _ _ := True
  next _ _ _ := ()

/-- Every call of the program is allowed in the phase it is made in, and the program ends in a phase
    that `Q` accepts. -/
def Follows (A : Protocol S Φ) (Q : Φ → Except ε α → Prop) : Φ → Program S ε α → Prop
  | φ, .ret a => Q φ (.ok a)
  | φ, .raise e => Q φ (.error e)
  | φ, .call q k => A.allowed φ q ∧ ∀ r, A.admits φ q r → Follows A Q (A.next φ q r) (k r)

variable {A : Protocol S Φ} {Q : Φ → Except ε α → Prop}

theorem Follows.mono {Q' : Φ → Except ε α → Prop} {φ : Φ} {p : Program S ε α}
    (hp : A.Follows Q φ p) (hQ : ∀ φ o, Q φ o → Q' φ o) : A.Follows Q' φ p := by
  induction p generalizing φ with
  | ret a => exact hQ _ _ hp
  | raise e => exact hQ _ _ hp
  | call q k ih => exact ⟨hp.1, fun r hr => ih r (hp.2 r hr)⟩

theorem Follows.bind {Q' : Φ → Except ε β → Prop} {φ : Φ} {p : Program S ε α}
    {f : α → Program S ε β} (hp : A.Follows Q φ p)
    (hok : ∀ φ a, Q φ (.ok a) → A.Follows Q' φ (f a))
    (herr : ∀ φ e, Q φ (.error e) → Q' φ (.error e)) : A.Follows Q' φ (p >>= f) := by
  induction p generalizing φ with
  | ret a => exact hok _ _ hp
  | raise e => exact herr _ _ hp
  | call q k ih => exact ⟨hp.1, fun r hr => ih r (hp.2 r hr)⟩

theorem Follows.tryCatch {φ : Φ} {R : Φ → Except ε α → Prop} {p : Program S ε α}
    {h : ε → Program S ε α} (hp : A.Follows R φ p) (hok : ∀ φ a, R φ (.ok a) → Q φ (.ok a))
    (herr : ∀ φ e, R φ (.error e) → A.Follows Q φ (h e)) :
    A.Follows Q φ (MonadExcept.tryCatch p h) := by
  induction p generalizing φ with
  | ret a => exact hok _ _ hp
  | raise e => exact herr _ _ hp
  | call q k ih => exact ⟨hp.1, fun r hr => ih r (hp.2 r hr)⟩

/-- A program that follows a protocol without phases or assumptions asks only what is allowed. -/
theorem Follows.asks {allowed : S.Request → Prop} {Q : Unit → Except ε α → Prop} {q : S.Request}
    {p : Program S ε α} (hp : (only allowed).Follows Q () p) (hq : p.Asks q) : allowed q := by
  induction hq with
  | here => exact hp.1
  | later r _ ih => exact ih (hp.2 r trivial)

/-- **Simulation rule.** A program keeps a second protocol if the phases of the two can be kept related:
    the second allows what the first allows, and admits no reply that the first does not. -/
theorem Follows.simulate {Ψ : Type} {B : Protocol S Ψ} {R : Φ → Ψ → Prop}
    (hB : ∀ φ ψ q, R φ ψ → A.allowed φ q → B.allowed ψ q ∧ ∀ r, B.admits ψ q r →
      A.admits φ q r ∧ R (A.next φ q r) (B.next ψ q r))
    {φ : Φ} {ψ : Ψ} {p : Program S ε α} (hR : R φ ψ) (hp : A.Follows Q φ p) :
    B.Follows (fun ψ o => ∃ φ, R φ ψ ∧ Q φ o) ψ p := by
  induction p generalizing φ ψ with
  | ret a => exact ⟨φ, hR, hp⟩
  | raise e => exact ⟨φ, hR, hp⟩
  | call q k ih =>
      obtain ⟨hallowed, hreplies⟩ := hB φ ψ q hR hp.1
      refine ⟨hallowed, fun r hr => ?_⟩
      obtain ⟨hadmits, hnext⟩ := hreplies r hr
      exact ih r hnext (hp.2 r hadmits)

/-- A program that asks only what moves a protocol nowhere follows it, staying in its phase. -/
theorem Follows.of_only {Ψ : Type} {allowed : S.Request → Prop} {Q : Unit → Except ε α → Prop}
    {B : Protocol S Ψ} {ψ : Ψ} {p : Program S ε α} (hp : (only allowed).Follows Q () p)
    (hB : ∀ q, allowed q → B.allowed ψ q ∧ ∀ r, B.next ψ q r = ψ) :
    B.Follows (fun φ o => φ = ψ ∧ Q () o) ψ p := by
  refine (Follows.simulate (R := fun _ φ => φ = ψ) ?_ rfl hp).mono fun φ o h => ?_
  · rintro _ φ q rfl hq
    exact ⟨(hB q hq).1, fun r _ => ⟨trivial, (hB q hq).2 r⟩⟩
  · obtain ⟨_, hφ, hQ⟩ := h
    exact ⟨hφ, hQ⟩

/-- The phase after these calls. -/
def after (A : Protocol S Φ) (φ : Φ) (l : List (Exchange S)) : Φ :=
  l.foldl (fun φ x => A.next φ x.request x.reply) φ

/-- **Run rule.** If the service keeps an invariant and answers only what the protocol admits, a
    program that follows the protocol ends in a phase its postcondition accepts: that after its calls. -/
theorem Follows.run_after {V : Service S χ σ} {I : Φ → σ → Prop}
    (hV : ∀ φ q c s, A.allowed φ q → I φ s →
      A.admits φ q (V q c s).1 ∧ I (A.next φ q (V q c s).1) (V q c s).2)
    {φ : Φ} {p : Program S ε α} {w : World χ σ} (hp : A.Follows Q φ p) (hI : I φ w.state) :
    Q (A.after φ (p.log V w)) (p.run V w).1 ∧ I (A.after φ (p.log V w)) (p.run V w).2.state := by
  induction p generalizing φ w with
  | ret a => exact ⟨hp, hI⟩
  | raise e => exact ⟨hp, hI⟩
  | call q k ih =>
      obtain ⟨hr, hI'⟩ := hV φ q (w.choices 0) w.state hp.1 hI
      exact ih _ (w := w.advance _) (hp.2 _ hr) hI'

/-- The run rule, where something is known of the environment's choices. -/
theorem Follows.run_where {V : Service S χ σ} {I : Φ → σ → Prop} {C : χ → Prop}
    (hV : ∀ φ q c s, C c → A.allowed φ q → I φ s →
      A.admits φ q (V q c s).1 ∧ I (A.next φ q (V q c s).1) (V q c s).2)
    {φ : Φ} {p : Program S ε α} {w : World χ σ} (hC : ∀ n, C (w.choices n)) (hp : A.Follows Q φ p)
    (hI : I φ w.state) : ∃ φ', Q φ' (p.run V w).1 ∧ I φ' (p.run V w).2.state := by
  induction p generalizing φ w with
  | ret a => exact ⟨φ, hp, hI⟩
  | raise e => exact ⟨φ, hp, hI⟩
  | call q k ih =>
      obtain ⟨hr, hI'⟩ := hV φ q (w.choices 0) w.state (hC 0) hp.1 hI
      exact ih _ (w := w.advance _) (fun n => hC (n + 1)) (hp.2 _ hr) hI'

theorem Follows.run {V : Service S χ σ} {I : Φ → σ → Prop}
    (hV : ∀ φ q c s, A.allowed φ q → I φ s →
      A.admits φ q (V q c s).1 ∧ I (A.next φ q (V q c s).1) (V q c s).2)
    {φ : Φ} {p : Program S ε α} {w : World χ σ} (hp : A.Follows Q φ p) (hI : I φ w.state) :
    ∃ φ', Q φ' (p.run V w).1 ∧ I φ' (p.run V w).2.state :=
  ⟨_, hp.run_after hV hI⟩

/-- **Reachability rule.** What each allowed request does to the state, closed under composition, is
    what the whole program does to it. -/
theorem Follows.run_rel {V : Service S χ σ} {R : σ → σ → Prop} (hrefl : ∀ s, R s s)
    (htrans : ∀ {a b c}, R a b → R b c → R a c)
    (hadm : ∀ φ q r, A.allowed φ q → A.admits φ q r)
    (hV : ∀ φ q c s, A.allowed φ q → R s (V q c s).2)
    {φ : Φ} {p : Program S ε α} {w : World χ σ} (hp : A.Follows Q φ p) :
    R w.state (p.run V w).2.state := by
  induction p generalizing φ w with
  | ret a => exact hrefl _
  | raise e => exact hrefl _
  | call q k ih =>
      exact htrans (hV φ q (w.choices 0) w.state hp.1)
        (ih _ (w := w.advance _) (hp.2 _ (hadm φ q _ hp.1)))

/-- **Log rule.** What holds of every answer to an allowed request, in the states an invariant
    describes, holds of every call a run makes. -/
theorem Follows.log {V : Service S χ σ} {I : Φ → σ → Prop} {G : Exchange S → Prop}
    (hV : ∀ φ q c s, A.allowed φ q → I φ s →
      A.admits φ q (V q c s).1 ∧ I (A.next φ q (V q c s).1) (V q c s).2)
    (hG : ∀ φ q c s, A.allowed φ q → I φ s → G ⟨q, (V q c s).1⟩)
    {φ : Φ} {p : Program S ε α} {w : World χ σ} (hp : A.Follows Q φ p) (hI : I φ w.state) :
    ∀ x ∈ p.log V w, G x := by
  induction p generalizing φ w with
  | ret a => simp [Program.log]
  | raise e => simp [Program.log]
  | call q k ih =>
      intro x hx
      obtain ⟨hr, hI'⟩ := hV φ q (w.choices 0) w.state hp.1 hI
      rcases List.mem_cons.mp hx with rfl | hx
      · exact hG φ q _ _ hp.1 hI
      · exact ih _ (w := w.advance _) (hp.2 _ hr) hI' x hx

/-- Each call of a run is allowed in the phase after the calls before it. -/
theorem Follows.allowed_of_log {V : Service S χ σ} {I : Φ → σ → Prop}
    (hV : ∀ φ q c s, A.allowed φ q → I φ s →
      A.admits φ q (V q c s).1 ∧ I (A.next φ q (V q c s).1) (V q c s).2)
    {φ : Φ} {p : Program S ε α} {w : World χ σ} (hp : A.Follows Q φ p) (hI : I φ w.state)
    {l l' : List (Exchange S)} {x : Exchange S} (hlog : p.log V w = l ++ x :: l') :
    A.allowed (A.after φ l) x.request := by
  induction p generalizing φ w l with
  | ret a => exact absurd hlog.symm (List.append_ne_nil_of_right_ne_nil l (List.cons_ne_nil x l'))
  | raise e => exact absurd hlog.symm (List.append_ne_nil_of_right_ne_nil l (List.cons_ne_nil x l'))
  | call q k ih =>
      obtain ⟨hr, hI'⟩ := hV φ q (w.choices 0) w.state hp.1 hI
      cases l with
      | nil =>
          cases (List.cons.inj hlog).1
          exact hp.1
      | cons y l =>
          obtain ⟨rfl, hrest⟩ := List.cons.inj hlog
          exact ih _ (w := w.advance _) (hp.2 _ hr) hI' hrest

end Protocol

/-! ## Two runs -/

/-- What a pair of runs may ask, and how the replies they get to one request are related. -/
structure Observation (S : Signature) where
  allowed : S.Request → Prop
  replies : (q : S.Request) → S.Reply q → S.Reply q → Prop

namespace Observation

variable {S : Signature} {ε α β γ δ χ σ Φ : Type}

/-- The two programs make the same allowed calls as long as the replies are related, and end in
    outcomes related by `R`. -/
inductive Indist (O : Observation S) (R : Except ε α → Except ε β → Prop) :
    Program S ε α → Program S ε β → Prop where
  | ret {a : α} {b : β} (h : R (.ok a) (.ok b)) : Indist O R (.ret a) (.ret b)
  | raise {e e' : ε} (h : R (.error e) (.error e')) : Indist O R (.raise e) (.raise e')
  | call {q : S.Request} {k : S.Reply q → Program S ε α} {k' : S.Reply q → Program S ε β}
      (hq : O.allowed q) (hk : ∀ r r', O.replies q r r' → Indist O R (k r) (k' r')) :
      Indist O R (.call q k) (.call q k')

variable {O : Observation S} {R : Except ε α → Except ε β → Prop}

theorem Indist.bind {R' : Except ε γ → Except ε δ → Prop} {p : Program S ε α} {p' : Program S ε β}
    {f : α → Program S ε γ} {g : β → Program S ε δ} (hp : O.Indist R p p')
    (hok : ∀ a b, R (.ok a) (.ok b) → O.Indist R' (f a) (g b))
    (herr : ∀ e e', R (.error e) (.error e') → R' (.error e) (.error e')) :
    O.Indist R' (p >>= f) (p' >>= g) := by
  induction hp with
  | ret h => exact hok _ _ h
  | raise h => exact .raise (herr _ _ h)
  | call hq _ ih => exact .call hq fun r r' hr => ih r r' hr

theorem Indist.mono {R' : Except ε α → Except ε β → Prop} {p : Program S ε α} {p' : Program S ε β}
    (hp : O.Indist R p p') (hR : ∀ o o', R o o' → R' o o') : O.Indist R' p p' := by
  induction hp with
  | ret h => exact .ret (hR _ _ h)
  | raise h => exact .raise (hR _ _ h)
  | call hq _ ih => exact .call hq ih

/-- A program that follows a protocol whose admitted replies the observation identifies is
    indistinguishable from itself. -/
theorem Indist.of_follows {A : Protocol S Unit} {Q : Unit → Except ε α → Prop}
    {p : Program S ε α} (hp : A.Follows Q () p) (hallowed : ∀ q, A.allowed () q → O.allowed q)
    (hreplies : ∀ q r r', A.allowed () q → O.replies q r r' → r = r' ∧ A.admits () q r) :
    O.Indist (fun o o' => o = o' ∧ Q () o) p p := by
  induction p with
  | ret a => exact .ret ⟨rfl, hp⟩
  | raise e => exact .raise ⟨rfl, hp⟩
  | call q k ih =>
      refine .call (hallowed q hp.1) fun r r' hr => ?_
      obtain ⟨rfl, hadm⟩ := hreplies q r r' hp.1 hr
      exact ih r (hp.2 r hadm)

/-- **Two-run rule.** If every allowed request answers related replies on related states and keeps them
    related, indistinguishable programs end in related outcomes and related states. -/
theorem Indist.run {V : Service S χ σ} {Sim : σ → σ → Prop}
    (hV : ∀ q c s s', O.allowed q → Sim s s' →
      O.replies q (V q c s).1 (V q c s').1 ∧ Sim (V q c s).2 (V q c s').2)
    {p : Program S ε α} {p' : Program S ε β} {w w' : World χ σ} (hp : O.Indist R p p')
    (hc : w.choices = w'.choices) (hs : Sim w.state w'.state) :
    R (p.run V w).1 (p'.run V w').1 ∧ Sim (p.run V w).2.state (p'.run V w').2.state := by
  induction hp generalizing w w' with
  | ret h => exact ⟨h, hs⟩
  | raise h => exact ⟨h, hs⟩
  | @call q k k' hq _ ih =>
      obtain ⟨hr, hs'⟩ := hV q (w.choices 0) w.state w'.state hq hs
      rw [Program.run_call, Program.run_call, ← hc]
      exact ih _ _ hr (by simp only [World.advance, hc]) hs'

/-! ### Erasing what nobody may see -/

/-- The request is answered without a look at what `erase` takes away, and leaves it as it is. -/
def Blind (V : Service S χ σ) (erase : σ → σ) (q : S.Request) : Prop :=
  ∀ c s, V q c (erase s) = ((V q c s).1, erase (V q c s).2)

/-- States that are equal once erased get equal answers, and stay equal once erased. -/
theorem Blind.answer {V : Service S χ σ} {erase : σ → σ} {q : S.Request} (hq : Blind V erase q)
    {s s' : σ} (h : erase s = erase s') (c : χ) :
    (V q c s).1 = (V q c s').1 ∧ erase (V q c s).2 = erase (V q c s').2 := by
  have hs := hq c s
  have hs' := hq c s'
  rw [h, hs'] at hs
  exact ⟨(congrArg Prod.fst hs).symm, (congrArg Prod.snd hs).symm⟩

/-- **Noninterference rule.** A program that asks only what is answered blindly, on an invariant of the
    states that the protocol's assumptions follow from, ends in the same way on states that are equal
    once erased, and leaves such states. -/
theorem Blind.run {V : Service S χ σ} {erase : σ → σ} {A : Protocol S Unit}
    {Q : Unit → Except ε α → Prop} {I : σ → Prop} {p : Program S ε α} {w w' : World χ σ}
    (hp : A.Follows Q () p) (hblind : ∀ q, A.allowed () q → Blind V erase q)
    (hI : ∀ q c s, A.allowed () q → I s → A.admits () q (V q c s).1 ∧ I (V q c s).2)
    (hc : w.choices = w'.choices) (hs : erase w.state = erase w'.state) (h : I w.state) :
    (p.run V w).1 = (p.run V w').1 ∧ erase (p.run V w).2.state = erase (p.run V w').2.state := by
  let O : Observation S := ⟨A.allowed (), fun q r r' => r = r' ∧ A.admits () q r⟩
  have hself : O.Indist (fun o o' => o = o' ∧ Q () o) p p :=
    Indist.of_follows hp (fun _ hq => hq) fun _ _ _ _ hr => hr
  have hserve : ∀ q c s s', O.allowed q → (erase s = erase s' ∧ I s) →
      O.replies q (V q c s).1 (V q c s').1 ∧
        (erase (V q c s).2 = erase (V q c s').2 ∧ I (V q c s).2) := by
    rintro q c s s' hq ⟨hs, hIs⟩
    obtain ⟨hreply, hstate⟩ := (hblind q hq).answer hs c
    obtain ⟨hadmits, hIs'⟩ := hI q c s hq hIs
    exact ⟨⟨hreply, hadmits⟩, hstate, hIs'⟩
  obtain ⟨⟨houtcome, -⟩, hstate, -⟩ := hself.run hserve hc ⟨hs, h⟩
  exact ⟨houtcome, hstate⟩

end Observation
end Interaction
