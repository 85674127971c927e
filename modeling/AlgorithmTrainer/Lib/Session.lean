/-!
# `Lib.Session` — one connection and its transaction

A `Session` is a committed state and, while a transaction is open, the working state on which its statements
run. A statement outside of a transaction commits by itself. What a rollback keeps of the working state is up
to the database: a sequence that was drawn from may stay drawn from.
-/

namespace Relational

structure Session (σ : Type) where
  committed : σ
  working : Option σ

namespace Session

variable {σ ρ : Type}

/-- No transaction is open. -/
def idle (d : σ) : Session σ := ⟨d, none⟩

/-- The state that a statement sees. -/
def current (s : Session σ) : σ := s.working.getD s.committed

/-- A statement that leaves the state `d`. -/
def write (s : Session σ) (d : σ) : Session σ :=
  match s.working with
  | some _ => { s with working := some d }
  | none => { s with committed := d }

/-- `BEGIN`, which fails inside of a transaction. -/
def begin (s : Session σ) : Option (Session σ) :=
  match s.working with
  | some _ => none
  | none => some { s with working := some s.committed }

/-- `COMMIT`. -/
def commit (s : Session σ) : Session σ := ⟨s.current, none⟩

/-- `ROLLBACK`, after which `keep working committed` is committed. -/
def rollback (keep : σ → σ → σ) (s : Session σ) : Session σ :=
  ⟨keep s.current s.committed, none⟩

variable {s : Session σ} {d d' : σ}

@[simp] theorem current_idle : (idle d).current = d := rfl
@[simp] theorem committed_idle : (idle d).committed = d := rfl
@[simp] theorem current_open : (⟨d, some d'⟩ : Session σ).current = d' := rfl
@[simp] theorem committed_commit : s.commit.committed = s.current := rfl
@[simp] theorem working_commit : s.commit.working = none := rfl
@[simp] theorem working_rollback (keep : σ → σ → σ) : (s.rollback keep).working = none := rfl

/-- The next statement sees what this one wrote. -/
@[simp] theorem current_write : (s.write d).current = d := by
  unfold write
  split
  · rfl
  · rename_i h
    simp [current, h]

/-- A statement of a transaction commits nothing. -/
theorem write_open (h : s.working = some d') : s.write d = ⟨s.committed, some d⟩ := by
  unfold write
  rw [h]

end Session
end Relational
