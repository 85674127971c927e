import Mathlib.Logic.Function.Basic
import AlgorithmTrainer.Lib.Trace

/-!
# `Lib.Locking` — transactions under advisory locks, in read committed isolation

Any number of sessions share one committed state. A session either runs a single statement that commits
by itself (`execute`), or a transaction of one statement under an advisory lock, in separate steps:
begin, acquire the lock, evaluate the statement, commit. A statement sees the rows committed when it
starts; what it wrote stays private to its session until the commit. A lock is held from its acquisition
until the transaction ends, and by one session at a time (`exclusive`). Every step of a transaction may
fail and roll it back.

`Admission.bound` is the rule this file exists for: a quantity that statements raise only under one
lock, and only after checking the bound in the state they see, stays within the bound in every
interleaving.
-/

namespace Locking

open Transition

/-- How statements act on the committed state `σ`. A locked statement `τ` is evaluated against it: what
    is not transactional (a sequence) advances at once, and the writes `ε`, if the statement does not
    fail, wait for the commit. A plain statement `υ` evaluates and commits in one step. `χ` is what the
    environment decides. -/
structure Engine (σ χ τ υ ε : Type) where
  evaluate : τ → χ → σ → σ × Option ε
  commit : ε → σ → σ
  execute : υ → χ → σ → σ

/-- Where a session stands in its transaction. -/
inductive Phase (κ τ ε : Type) where
  | idle
  | begun (k : κ) (s : τ)
  | locked (k : κ) (s : τ)
  | executed (k : κ) (e : ε)

/-- The phase is between the acquisition of the lock and the end of the transaction. -/
def Phase.Holds {κ τ ε : Type} (k : κ) : Phase κ τ ε → Prop
  | .locked k' _ => k' = k
  | .executed k' _ => k' = k
  | _ => False

/-- The committed state and the sessions. -/
structure System (ι σ κ τ ε : Type) where
  committed : σ
  session : ι → Phase κ τ ε

/-- What a step was. -/
inductive Label (ι κ τ υ : Type) where
  | begin (i : ι) (k : κ) (s : τ)
  | lock (i : ι)
  | statement (i : ι)
  | commit (i : ι)
  | rollback (i : ι)
  | execute (i : ι) (s : υ)

section machine

variable {ι σ χ κ τ υ ε : Type} [DecidableEq ι]

def System.set (d : System ι σ κ τ ε) (i : ι) (φ : Phase κ τ ε) (s : σ) : System ι σ κ τ ε :=
  ⟨s, Function.update d.session i φ⟩

@[simp] theorem System.set_committed (d : System ι σ κ τ ε) (i : ι) (φ : Phase κ τ ε) (s : σ) :
    (d.set i φ s).committed = s := rfl
@[simp] theorem System.set_self (d : System ι σ κ τ ε) (i : ι) (φ : Phase κ τ ε) (s : σ) :
    (d.set i φ s).session i = φ := Function.update_self ..

theorem System.set_other (d : System ι σ κ τ ε) {i j : ι} (φ : Phase κ τ ε) (s : σ) (h : j ≠ i) :
    (d.set i φ s).session j = d.session j := Function.update_of_ne h ..

/-- The steps, for the locked calls and the plain statements that the sessions make. -/
inductive Step (E : Engine σ χ τ υ ε) (lockedCall : κ → τ → Prop) (plainCall : υ → Prop) :
    System ι σ κ τ ε → Label ι κ τ υ → System ι σ κ τ ε → Prop where
  | begin {d : System ι σ κ τ ε} {i : ι} {k : κ} {s : τ} : d.session i = .idle → lockedCall k s →
      Step E lockedCall plainCall d (.begin i k s) (d.set i (.begun k s) d.committed)
  | lock {d : System ι σ κ τ ε} {i : ι} {k : κ} {s : τ} : d.session i = .begun k s →
      (∀ j, ¬ (d.session j).Holds k) →
      Step E lockedCall plainCall d (.lock i) (d.set i (.locked k s) d.committed)
  | statement {d : System ι σ κ τ ε} {i : ι} {k : κ} {s : τ} {c : χ} {s' : σ} {e : ε} :
      d.session i = .locked k s → E.evaluate s c d.committed = (s', some e) →
      Step E lockedCall plainCall d (.statement i) (d.set i (.executed k e) s')
  | failed {d : System ι σ κ τ ε} {i : ι} {k : κ} {s : τ} {c : χ} {s' : σ} :
      d.session i = .locked k s → E.evaluate s c d.committed = (s', none) →
      Step E lockedCall plainCall d (.rollback i) (d.set i .idle s')
  | commit {d : System ι σ κ τ ε} {i : ι} {k : κ} {e : ε} : d.session i = .executed k e →
      Step E lockedCall plainCall d (.commit i) (d.set i .idle (E.commit e d.committed))
  | rollback {d : System ι σ κ τ ε} {i : ι} :
      Step E lockedCall plainCall d (.rollback i) (d.set i .idle d.committed)
  | execute {d : System ι σ κ τ ε} {i : ι} {u : υ} {c : χ} : d.session i = .idle → plainCall u →
      Step E lockedCall plainCall d (.execute i u)
        { d with committed := E.execute u c d.committed }

variable {E : Engine σ χ τ υ ε} {lockedCall : κ → τ → Prop} {plainCall : υ → Prop}

/-- A session can run a whole transaction while no session holds its lock. -/
theorem run_transaction {d : System ι σ κ τ ε} {i : ι} {k : κ} {s : τ} {c : χ} {x : σ} {e : ε}
    (hidle : d.session i = .idle) (hcall : lockedCall k s) (hfree : ∀ j, ¬ (d.session j).Holds k)
    (hev : E.evaluate s c d.committed = (x, some e)) :
    ∃ d', Run (Step E lockedCall plainCall) d [.commit i, .statement i, .lock i, .begin i k s] d' ∧
      d'.committed = E.commit e x ∧ ∀ j, d'.session j = d.session j := by
  have hlock : ∀ j, ¬ ((d.set i (.begun k s) d.committed).session j).Holds k := fun j => by
    by_cases hji : j = i
    · rw [hji, System.set_self]; exact id
    · rw [System.set_other _ _ _ hji]; exact hfree j
  have hstart : Run (Step E lockedCall plainCall) d [] d := .start
  have hrun := (((hstart.next (.begin hidle hcall)).next (.lock (System.set_self ..) hlock)).next
    (.statement (c := c) (System.set_self ..) hev)).next (.commit (System.set_self ..))
  refine ⟨_, hrun, rfl, fun j => ?_⟩
  by_cases hji : j = i
  · rw [hji, System.set_self, hidle]
  · simp only [System.set_other _ _ _ hji]

/-! ## Mutual exclusion -/

/-- No two sessions hold the same lock. -/
def Exclusive (d : System ι σ κ τ ε) : Prop :=
  ∀ i j k, (d.session i).Holds k → (d.session j).Holds k → i = j

/-- A session that moves to a phase holding only what it held keeps the locks exclusive. -/
theorem exclusive_set {d : System ι σ κ τ ε} {i : ι} {φ : Phase κ τ ε} {s : σ} (hd : Exclusive d)
    (h : ∀ k, φ.Holds k → (d.session i).Holds k ∨ ∀ j, ¬ (d.session j).Holds k) :
    Exclusive (d.set i φ s) := by
  intro a b k ha hb
  by_cases hai : a = i
  · by_cases hbi : b = i
    · rw [hai, hbi]
    · subst hai
      rw [System.set_self] at ha
      rw [System.set_other _ _ _ hbi] at hb
      rcases h k ha with hi | hno
      · exact hd _ _ k hi hb
      · exact absurd hb (hno b)
  · rw [System.set_other _ _ _ hai] at ha
    by_cases hbi : b = i
    · subst hbi
      rw [System.set_self] at hb
      rcases h k hb with hi | hno
      · exact hd _ _ k ha hi
      · exact absurd ha (hno a)
    · rw [System.set_other _ _ _ hbi] at hb
      exact hd _ _ k ha hb

theorem exclusive_step {d d' : System ι σ κ τ ε} {a : Label ι κ τ υ} (hd : Exclusive d)
    (h : Step E lockedCall plainCall d a d') : Exclusive d' := by
  cases h with
  | begin hi _ => exact exclusive_set hd fun k hk => hk.elim
  | lock hi hfree => exact exclusive_set hd fun k hk => Or.inr (hk ▸ hfree)
  | statement hi _ => exact exclusive_set hd fun k hk => Or.inl (by rw [hi]; exact hk)
  | failed hi _ => exact exclusive_set hd fun k hk => hk.elim
  | commit hi => exact exclusive_set hd fun k hk => hk.elim
  | rollback => exact exclusive_set hd fun k hk => hk.elim
  | execute hi _ => exact hd

/-! ## A bound that is checked under a lock -/

/-- The writes `e` were evaluated from a statement that is called under the lock `k`. -/
def Produced (E : Engine σ χ τ υ ε) (lockedCall : κ → τ → Prop) (k : κ) (e : ε) : Prop :=
  ∃ s c x x', lockedCall k s ∧ E.evaluate s c x = (x', some e)

/-- What makes a pending write stay meaningful while other sessions move: `Valid e s` holds when `e` is
    evaluated and survives the steps other sessions can take meanwhile. -/
structure Stable (E : Engine σ χ τ υ ε) (lockedCall : κ → τ → Prop) (plainCall : υ → Prop)
    (Valid : ε → σ → Prop) : Prop where
  evaluated : ∀ {k s c x x' e}, lockedCall k s → E.evaluate s c x = (x', some e) → Valid e x'
  evaluate : ∀ {k s c x x' o e}, lockedCall k s → E.evaluate s c x = (x', o) →
    Valid e x → Valid e x'
  execute : ∀ {u c x e}, plainCall u → Valid e x → Valid e (E.execute u c x)
  commit : ∀ {k k' e e' x}, k ≠ k' → Produced E lockedCall k e → Produced E lockedCall k' e' →
    Valid e x → Valid e' x → Valid e (E.commit e' x)

/-- A measure `m` with bound `N` that is guarded by the lock `k₀`: committing `e` raises it by at most
    `rise e`, a rise happens only under `k₀`, and a statement evaluated under `k₀` has checked that its
    rise still fits. -/
structure Admission (E : Engine σ χ τ υ ε) (lockedCall : κ → τ → Prop) (plainCall : υ → Prop)
    (Valid : ε → σ → Prop) (k₀ : κ) (m : σ → Nat) (N : Nat) (rise : ε → Nat) : Prop where
  evaluate_le : ∀ {k s c x x' o}, lockedCall k s → E.evaluate s c x = (x', o) → m x' ≤ m x
  execute_le : ∀ {u c x}, plainCall u → m (E.execute u c x) ≤ m x
  commit_le : ∀ {e x}, Valid e x → m (E.commit e x) ≤ m x + rise e
  checked : ∀ {s c x x' e}, lockedCall k₀ s → E.evaluate s c x = (x', some e) → m x ≤ N →
    m x + rise e ≤ N
  guarded : ∀ {k e}, k ≠ k₀ → Produced E lockedCall k e → rise e = 0

/-- What a session may rely on in its phase: it makes only its calls, and its pending writes were evaluated
    from one and are valid in the committed state `x`. -/
def Phase.Coherent (E : Engine σ χ τ υ ε) (lockedCall : κ → τ → Prop) (Valid : ε → σ → Prop) (x : σ) :
    Phase κ τ ε → Prop
  | .idle => True
  | .begun k s => lockedCall k s
  | .locked k s => lockedCall k s
  | .executed k e => Produced E lockedCall k e ∧ Valid e x

/-- The invariant of the sessions. -/
structure Coherent (E : Engine σ χ τ υ ε) (lockedCall : κ → τ → Prop) (Valid : ε → σ → Prop)
    (d : System ι σ κ τ ε) : Prop where
  exclusive : Exclusive d
  phases : ∀ i, (d.session i).Coherent E lockedCall Valid d.committed

variable {Valid : ε → σ → Prop} {k₀ : κ} {m : σ → Nat} {N : Nat} {rise : ε → Nat}

/-- What holds of the phase a session moves to and of all other phases holds of all phases. -/
theorem System.forall_set {d : System ι σ κ τ ε} {i : ι} {φ : Phase κ τ ε} {x : σ}
    {Q : Phase κ τ ε → Prop} (hφ : Q φ) (hother : ∀ j, j ≠ i → Q (d.session j)) :
    ∀ j, Q ((d.set i φ x).session j) := by
  intro j
  by_cases hji : j = i
  · subst hji
    rw [System.set_self]
    exact hφ
  · rw [System.set_other _ _ _ hji]
    exact hother j hji

omit [DecidableEq ι] in
/-- A phase stays coherent when its pending writes stay valid. -/
theorem Phase.Coherent.mono {φ : Phase κ τ ε} {x x' : σ} (hφ : φ.Coherent E lockedCall Valid x)
    (h : ∀ k e, φ = .executed k e → Produced E lockedCall k e → Valid e x → Valid e x') :
    φ.Coherent E lockedCall Valid x' := by
  cases φ with
  | idle => trivial
  | begun k s => exact hφ
  | locked k s => exact hφ
  | executed k e => exact ⟨hφ.1, h k e rfl hφ.1 hφ.2⟩

/-- Writes that stay valid under an invariant of the committed state, and an invariant that the commits of
    valid writes keep. -/
structure Maintained (E : Engine σ χ τ υ ε) (lockedCall : κ → τ → Prop) (plainCall : υ → Prop)
    (Valid : ε → σ → Prop) (I : σ → Prop) : Prop where
  evaluated : ∀ {k s c x x' e}, I x → lockedCall k s → E.evaluate s c x = (x', some e) → Valid e x'
  evaluate : ∀ {k s c x x' o e}, I x → lockedCall k s → E.evaluate s c x = (x', o) →
    Valid e x → Valid e x'
  execute : ∀ {u c x e}, I x → plainCall u → Valid e x → Valid e (E.execute u c x)
  commit : ∀ {k k' e e' x}, I x → k ≠ k' → Produced E lockedCall k e → Produced E lockedCall k' e' →
    Valid e x → Valid e' x → Valid e (E.commit e' x)
  keeps_evaluate : ∀ {k s c x x' o}, lockedCall k s → E.evaluate s c x = (x', o) → I x → I x'
  keeps_execute : ∀ {u c x}, plainCall u → I x → I (E.execute u c x)
  keeps_commit : ∀ {k e x}, Produced E lockedCall k e → Valid e x → I x → I (E.commit e x)

/-- A step keeps the invariant, and the sessions stay coherent. -/
theorem Maintained.step {I : σ → Prop} (hM : Maintained E lockedCall plainCall Valid I)
    {d d' : System ι σ κ τ ε} {a : Label ι κ τ υ} (hd : Coherent E lockedCall Valid d)
    (hI : I d.committed) (h : Step E lockedCall plainCall d a d') :
    Coherent E lockedCall Valid d' ∧ I d'.committed := by
  suffices hphases : (∀ i, (d'.session i).Coherent E lockedCall Valid d'.committed) ∧
      I d'.committed from ⟨⟨exclusive_step hd.exclusive h, hphases.1⟩, hphases.2⟩
  have hphase : ∀ {i φ}, d.session i = φ → φ.Coherent E lockedCall Valid d.committed :=
    fun hi => hi ▸ hd.phases _
  cases h with
  | begin _ hcall => exact ⟨System.forall_set hcall fun j _ => hd.phases j, hI⟩
  | @lock i k s hi _ =>
      have hcall : lockedCall k s := hphase hi
      exact ⟨System.forall_set hcall fun j _ => hd.phases j, hI⟩
  | rollback => exact ⟨System.forall_set trivial fun j _ => hd.phases j, hI⟩
  | statement hi hev =>
      refine ⟨System.forall_set ⟨⟨_, _, _, _, hphase hi, hev⟩, hM.evaluated hI (hphase hi) hev⟩
        fun j _ => (hd.phases j).mono fun _ _ _ _ hv => hM.evaluate hI (hphase hi) hev hv, ?_⟩
      exact hM.keeps_evaluate (hphase hi) hev hI
  | failed hi hev =>
      refine ⟨System.forall_set trivial
        fun j _ => (hd.phases j).mono fun _ _ _ _ hv => hM.evaluate hI (hphase hi) hev hv, ?_⟩
      exact hM.keeps_evaluate (hphase hi) hev hI
  | @commit i k e hi =>
      obtain ⟨hprod, hvalid⟩ := hphase hi
      refine ⟨System.forall_set trivial fun j hji => (hd.phases j).mono fun k' e' hj hp hv => ?_,
        hM.keeps_commit hprod hvalid hI⟩
      -- another pending write is under another lock, since this session holds its own
      have hne : k' ≠ k := fun hk =>
        hji (hd.exclusive j i k (by rw [hj]; exact hk) (by rw [hi]; rfl))
      exact hM.commit hI hne hp hprod hv hvalid
  | execute _ hcall =>
      exact ⟨fun j => (hd.phases j).mono fun _ _ _ _ hv => hM.execute hI hcall hv,
        hM.keeps_execute hcall hI⟩

/-- The sessions stay coherent. -/
theorem Coherent.step (hS : Stable E lockedCall plainCall Valid) {d d' : System ι σ κ τ ε}
    {a : Label ι κ τ υ} (hd : Coherent E lockedCall Valid d)
    (h : Step E lockedCall plainCall d a d') : Coherent E lockedCall Valid d' := by
  have hM : Maintained E lockedCall plainCall Valid fun _ => True :=
    { evaluated := fun _ => hS.evaluated
      evaluate := fun _ => hS.evaluate
      execute := fun _ => hS.execute
      commit := fun _ => hS.commit
      keeps_evaluate := fun _ _ _ => trivial
      keeps_execute := fun _ _ => trivial
      keeps_commit := fun _ _ _ => trivial }
  exact (hM.step hd trivial h).1

omit [DecidableEq ι] in
/-- Sessions that have not begun are coherent. -/
theorem Coherent.of_idle {d : System ι σ κ τ ε} (hidle : ∀ i, d.session i = .idle) :
    Coherent E lockedCall Valid d :=
  ⟨fun i _ _ hi => (by rw [hidle i] at hi; exact hi.elim), fun i => by rw [hidle i]; trivial⟩

/-- **Maintenance rule.** An invariant under which pending writes stay valid, and which their commits keep,
    holds in every interleaving. -/
theorem Maintained.invariant {I : σ → Prop} (hM : Maintained E lockedCall plainCall Valid I)
    {d₀ d : System ι σ κ τ ε} {h : List (Label ι κ τ υ)} (hidle : ∀ i, d₀.session i = .idle)
    (h₀ : I d₀.committed) (hrun : Run (Step E lockedCall plainCall) d₀ h d) :
    Coherent E lockedCall Valid d ∧ I d.committed :=
  hrun.invariant (I := fun _ d => Coherent E lockedCall Valid d ∧ I d.committed)
    ⟨.of_idle hidle, h₀⟩ fun _ _ _ _ hd _ hs => hM.step hd.1 hd.2 hs

/-- **An invariant of the committed state.** What statements and the commits of valid pending writes keep
    holds in every interleaving. -/
theorem Stable.invariant (hS : Stable E lockedCall plainCall Valid) {I : σ → Prop}
    (hevaluate : ∀ {k s c x x' o}, lockedCall k s → E.evaluate s c x = (x', o) → I x → I x')
    (hexecute : ∀ {u c x}, plainCall u → I x → I (E.execute u c x))
    (hcommit : ∀ {k e x}, Produced E lockedCall k e → Valid e x → I x → I (E.commit e x))
    {d₀ d : System ι σ κ τ ε} {h : List (Label ι κ τ υ)} (hidle : ∀ i, d₀.session i = .idle)
    (h₀ : I d₀.committed) (hrun : Run (Step E lockedCall plainCall) d₀ h d) : I d.committed := by
  have hM : Maintained E lockedCall plainCall Valid I :=
    { evaluated := fun _ => hS.evaluated
      evaluate := fun _ => hS.evaluate
      execute := fun _ => hS.execute
      commit := fun _ => hS.commit
      keeps_evaluate := hevaluate
      keeps_execute := hexecute
      keeps_commit := hcommit }
  exact (hM.invariant hidle h₀ hrun).2

/-- The holder of `k₀` has room for its pending rise. -/
def Phase.HasRoom (k₀ : κ) (m : σ → Nat) (N : Nat) (rise : ε → Nat) (x : σ) : Phase κ τ ε → Prop
  | .executed k e => k = k₀ → m x + rise e ≤ N
  | _ => True

omit [DecidableEq ι] in
theorem Phase.HasRoom.mono {φ : Phase κ τ ε} {x x' : σ} (hφ : φ.HasRoom k₀ m N rise x)
    (h : m x' ≤ m x) : φ.HasRoom k₀ m N rise x' := by
  cases φ with
  | executed k e => exact fun hk => Nat.le_trans (Nat.add_le_add_right h _) (hφ hk)
  | _ => trivial

/-- The invariant of the machine: coherent sessions, the bound, and room for every pending rise. -/
structure Sound (E : Engine σ χ τ υ ε) (lockedCall : κ → τ → Prop) (Valid : ε → σ → Prop) (k₀ : κ)
    (m : σ → Nat) (N : Nat) (rise : ε → Nat) (d : System ι σ κ τ ε) : Prop
    extends Coherent E lockedCall Valid d where
  bound : m d.committed ≤ N
  room : ∀ i, (d.session i).HasRoom k₀ m N rise d.committed

theorem Sound.step (hS : Stable E lockedCall plainCall Valid)
    (hA : Admission E lockedCall plainCall Valid k₀ m N rise) {d d' : System ι σ κ τ ε}
    {a : Label ι κ τ υ} (hd : Sound E lockedCall Valid k₀ m N rise d)
    (h : Step E lockedCall plainCall d a d') : Sound E lockedCall Valid k₀ m N rise d' := by
  suffices hbound : m d'.committed ≤ N ∧
      ∀ i, (d'.session i).HasRoom k₀ m N rise d'.committed from
    ⟨hd.toCoherent.step hS h, hbound.1, hbound.2⟩
  have hphase : ∀ {i φ}, d.session i = φ → φ.Coherent E lockedCall Valid d.committed :=
    fun hi => hi ▸ hd.phases _
  have hframe : ∀ {x}, m x ≤ m d.committed →
      m x ≤ N ∧ ∀ j, (d.session j).HasRoom k₀ m N rise x :=
    fun hm => ⟨Nat.le_trans hm hd.bound, fun j => (hd.room j).mono hm⟩
  cases h with
  | begin _ _ => exact ⟨hd.bound, System.forall_set trivial fun j _ => hd.room j⟩
  | lock _ _ => exact ⟨hd.bound, System.forall_set trivial fun j _ => hd.room j⟩
  | rollback => exact ⟨hd.bound, System.forall_set trivial fun j _ => hd.room j⟩
  | execute _ hcall => exact hframe (hA.execute_le hcall)
  | failed hi hev =>
      obtain ⟨hb, hr⟩ := hframe (hA.evaluate_le (hphase hi) hev)
      exact ⟨hb, System.forall_set trivial fun j _ => hr j⟩
  | statement hi hev =>
      have hm := hA.evaluate_le (hphase hi) hev
      obtain ⟨hb, hr⟩ := hframe hm
      refine ⟨hb, System.forall_set ?_ fun j _ => hr j⟩
      rintro rfl
      exact Nat.le_trans (Nat.add_le_add_right hm _) (hA.checked (hphase hi) hev hd.bound)
  | @commit i k e hi =>
      obtain ⟨hprod, hvalid⟩ := hphase hi
      have hle := hA.commit_le hvalid
      by_cases hk : k = k₀
      · subst hk
        have hroom : m d.committed + rise e ≤ N := by
          have hi' := hd.room i
          rw [hi] at hi'
          exact hi' rfl
        refine ⟨Nat.le_trans hle hroom, System.forall_set trivial fun j hji => ?_⟩
        -- the lock is exclusive, so no other session has writes under it
        cases hj : d.session j with
        | executed k' e' =>
            exact fun hk' => absurd (hd.exclusive j i k (by rw [hj]; exact hk') (by rw [hi]; rfl)) hji
        | _ => trivial
      · rw [hA.guarded hk hprod] at hle
        obtain ⟨hb, hr⟩ := hframe hle
        exact ⟨hb, System.forall_set trivial fun j _ => hr j⟩

/-- **A bound that is checked under a lock holds in every interleaving.** -/
theorem Admission.bound (hS : Stable E lockedCall plainCall Valid)
    (hA : Admission E lockedCall plainCall Valid k₀ m N rise) {d₀ d : System ι σ κ τ ε}
    {h : List (Label ι κ τ υ)} (hidle : ∀ i, d₀.session i = .idle) (h₀ : m d₀.committed ≤ N)
    (hrun : Run (Step E lockedCall plainCall) d₀ h d) : m d.committed ≤ N := by
  have hinit : Sound E lockedCall Valid k₀ m N rise d₀ :=
    { Coherent.of_idle hidle with
      bound := h₀
      room := fun i => by rw [hidle i]; trivial }
  exact (hrun.invariant (I := fun _ d => Sound E lockedCall Valid k₀ m N rise d) hinit
    fun _ _ _ _ hd _ hs => hd.step hS hA hs).bound

end machine
end Locking
