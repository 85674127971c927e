import Mathlib.Data.List.Infix

/-!
# `Lib.Transfer` — loops over partial transfers

A `write` may accept, and a `read` may return, fewer bytes than it was asked for, and either may be
interrupted. `writeAll` and `readAll` are the loops that call again until everything is transferred. A
`Schedule` says what happens in each call; once it is used up, a call transfers everything it is asked for. So
every execution that returns is the one under some schedule, and both functions are total.

The rules: a loop that succeeds has transferred exactly what it was to transfer, one that fails a prefix, and
without failures `readAll` succeeds exactly if there is enough to read.
-/

namespace Transfer

variable {α : Type}

/-- What happens in one call. -/
inductive Attempt where
  /-- At least one element is transferred, and at most `more` further ones. -/
  | transfers (more : Nat)
  | interrupted
  | failed
deriving DecidableEq

abbrev Schedule := List Attempt

/-! ## Writing -/

structure Written (α : Type) where
  /-- The loop returned `true`. -/
  success : Bool
  /-- What was handed over to the kernel. -/
  accepted : List α
  /-- The calls that are left. -/
  schedule : Schedule

/-- Write until nothing is left. -/
def writeAll : Schedule → List α → Written α
  | schedule, [] => ⟨true, [], schedule⟩
  | [], data => ⟨true, data, []⟩
  | .transfers more :: schedule, data =>
      let rest := writeAll schedule (data.drop (more + 1))
      { rest with accepted := data.take (more + 1) ++ rest.accepted }
  | .interrupted :: schedule, data => writeAll schedule data
  | .failed :: schedule, _ => ⟨false, [], schedule⟩

@[simp] theorem writeAll_nil (schedule : Schedule) :
    writeAll schedule ([] : List α) = ⟨true, [], schedule⟩ := by
  cases schedule <;> rfl

/-- A write that succeeds hands over everything, and one that fails a part from the beginning. -/
theorem writeAll_spec (schedule : Schedule) (data : List α) :
    (writeAll schedule data).accepted <+: data ∧
      ((writeAll schedule data).success = true → (writeAll schedule data).accepted = data) := by
  induction schedule generalizing data with
  | nil => cases data <;> exact ⟨List.prefix_rfl, fun _ => rfl⟩
  | cons attempt schedule ih =>
      match data with
      | [] =>
          rw [writeAll_nil]
          exact ⟨List.prefix_rfl, fun _ => rfl⟩
      | a :: data =>
          cases attempt with
          | transfers more =>
              obtain ⟨⟨rest, hrest⟩, hall⟩ := ih ((a :: data).drop (more + 1))
              have hsplit := List.take_append_drop (more + 1) (a :: data)
              refine ⟨⟨rest, ?_⟩, fun h => ?_⟩
              · show ((a :: data).take (more + 1)
                  ++ (writeAll schedule ((a :: data).drop (more + 1))).accepted) ++ rest = a :: data
                rw [List.append_assoc, hrest, hsplit]
              · show (a :: data).take (more + 1)
                  ++ (writeAll schedule ((a :: data).drop (more + 1))).accepted = a :: data
                rw [hall h, hsplit]
          | interrupted => exact ih (a :: data)
          | failed => exact And.intro List.nil_prefix fun h => by cases h

/-- A write fails only in a call that fails. -/
theorem writeAll_success {schedule : Schedule} (h : Attempt.failed ∉ schedule) (data : List α) :
    (writeAll schedule data).success = true ∧
      Attempt.failed ∉ (writeAll schedule data).schedule := by
  induction schedule generalizing data with
  | nil => cases data <;> exact ⟨rfl, List.not_mem_nil⟩
  | cons attempt schedule ih =>
      have htail : Attempt.failed ∉ schedule := fun hm => h (List.mem_cons_of_mem _ hm)
      match data with
      | [] =>
          rw [writeAll_nil]
          exact ⟨rfl, h⟩
      | a :: data =>
          cases attempt with
          | transfers more => exact ih htail ((a :: data).drop (more + 1))
          | interrupted => exact ih htail (a :: data)
          | failed => exact absurd List.mem_cons_self h

/-! ## Reading -/

structure Got (α : Type) where
  /-- What was read, if the loop returned `true`. -/
  data : Option (List α)
  /-- What is left to read. -/
  stream : List α
  schedule : Schedule

/-- Read until `size` elements are there. The other end is closed: where nothing is left, a read reports the
    end. -/
def readAll : Schedule → Nat → List α → Got α
  | schedule, 0, stream => ⟨some [], stream, schedule⟩
  | [], size, stream =>
      if size ≤ stream.length then ⟨some (stream.take size), stream.drop size, []⟩
      else ⟨none, [], []⟩
  | .transfers more :: schedule, size, stream =>
      if stream.isEmpty then ⟨none, [], schedule⟩
      else
        let count := min (more + 1) size
        let rest := readAll schedule (size - (stream.take count).length) (stream.drop count)
        { rest with data := rest.data.map (stream.take count ++ ·) }
  | .interrupted :: schedule, size, stream => readAll schedule size stream
  | .failed :: schedule, _, stream => ⟨none, stream, schedule⟩

@[simp] theorem readAll_zero (schedule : Schedule) (stream : List α) :
    readAll schedule 0 stream = ⟨some [], stream, schedule⟩ := by
  cases schedule <;> rfl

/-- A read that succeeds returns the next `size` elements. -/
theorem readAll_some {schedule : Schedule} {size : Nat} {stream data : List α}
    (h : (readAll schedule size stream).data = some data) :
    size ≤ stream.length ∧ data = stream.take size ∧
      (readAll schedule size stream).stream = stream.drop size := by
  induction schedule generalizing size stream data with
  | nil =>
      match size with
      | 0 =>
          cases h
          exact ⟨Nat.zero_le _, rfl, rfl⟩
      | size + 1 =>
          simp only [readAll] at h ⊢
          split at h
          · rename_i hle
            cases h
            rw [if_pos hle]
            exact ⟨hle, rfl, rfl⟩
          · cases h
  | cons attempt schedule ih =>
      match size with
      | 0 =>
          rw [readAll_zero] at h ⊢
          cases h
          exact ⟨Nat.zero_le _, rfl, rfl⟩
      | size + 1 =>
          cases attempt with
          -- some elements now, the rest by the induction
          | transfers more =>
              simp only [readAll] at h ⊢
              split at h
              · cases h
              · rename_i hne
                rw [if_neg hne]
                simp only [Option.map_eq_some_iff] at h
                obtain ⟨rest, hrest, rfl⟩ := h
                obtain ⟨hle, rfl, hstream⟩ := ih hrest
                have hcount : (stream.take (min (more + 1) (size + 1))).length ≤ size + 1 := by
                  rw [List.length_take]
                  omega
                have hsize : size + 1 ≤ stream.length := by
                  rw [List.length_drop, List.length_take] at hle
                  omega
                have htaken : (stream.take (min (more + 1) (size + 1))).length
                    = min (more + 1) (size + 1) := by
                  rw [List.length_take]
                  omega
                refine ⟨hsize, ?_, ?_⟩
                · rw [htaken, ← List.take_add]
                  congr 1
                  omega
                · rw [hstream, List.drop_drop, htaken]
                  congr 1
                  omega
          | interrupted => exact ih h
          | failed => cases h

/-- Without failures, a read succeeds where there is enough to read. -/
theorem readAll_success {schedule : Schedule} (h : Attempt.failed ∉ schedule) {size : Nat}
    {stream : List α} (hsize : size ≤ stream.length) :
    (readAll schedule size stream).data = some (stream.take size) ∧
      Attempt.failed ∉ (readAll schedule size stream).schedule := by
  induction schedule generalizing size stream with
  | nil =>
      match size with
      | 0 => exact ⟨rfl, List.not_mem_nil⟩
      | size + 1 =>
          simp only [readAll, if_pos hsize]
          exact ⟨trivial, List.not_mem_nil⟩
  | cons attempt schedule ih =>
      have htail : Attempt.failed ∉ schedule := fun hm => h (List.mem_cons_of_mem _ hm)
      match size with
      | 0 =>
          rw [readAll_zero]
          exact ⟨rfl, h⟩
      | size + 1 =>
          cases attempt with
          | transfers more =>
              have hne : ¬ stream.isEmpty = true := by
                rw [List.isEmpty_iff]
                rintro rfl
                cases hsize
              have htaken : (stream.take (min (more + 1) (size + 1))).length
                  = min (more + 1) (size + 1) := by
                rw [List.length_take]
                omega
              -- what is left is enough for what is still to be read
              have hrest : size + 1 - min (more + 1) (size + 1)
                  ≤ (stream.drop (min (more + 1) (size + 1))).length := by
                rw [List.length_drop]
                omega
              obtain ⟨hdata, hleft⟩ := ih htail hrest
              simp only [readAll, if_neg hne, htaken, hdata]
              refine ⟨congrArg some ?_, hleft⟩
              show stream.take (min (more + 1) (size + 1)) ++ _ = _
              rw [← List.take_add]
              congr 1
              omega
          | interrupted => exact ih htail hsize
          | failed => exact absurd List.mem_cons_self h

/-- A read of more than there is fails. -/
theorem readAll_short {schedule : Schedule} {size : Nat} {stream : List α}
    (h : stream.length < size) : (readAll schedule size stream).data = none := by
  match hdata : (readAll schedule size stream).data with
  | none => rfl
  | some data =>
      have := (readAll_some hdata).1
      omega

end Transfer
