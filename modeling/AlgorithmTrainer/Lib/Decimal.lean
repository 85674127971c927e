import Mathlib.Data.List.Basic
import AlgorithmTrainer.Lib.Separated

/-!
# `Lib.Decimal` — decimal numbers, and texts that are lines of them

A number is read from its decimal text, with a minus sign where it is negative. A table of numbers is a
text of lines, each ended by a line feed, whose numbers have one blank between them. What is printed is
read back.
-/

namespace Decimal

/-! ## Numbers -/

/-- The number that these digits spell. -/
def readNat (digits : List Char) : Option Nat :=
  if digits ≠ [] ∧ digits.all Char.isDigit = true then some (Nat.ofDigitChars 10 digits 0) else none

def readInt : List Char → Option Int
  | '-' :: digits => (readNat digits).map fun n => -(n : Int)
  | digits => (readNat digits).map fun n => (n : Int)

theorem readNat_toDigits (m : Nat) : readNat (Nat.toDigits 10 m) = some m := by
  have hdigits : (Nat.toDigits 10 m).all Char.isDigit = true :=
    List.all_eq_true.mpr fun c hc => Nat.isDigit_of_mem_toDigits (by decide) (by decide) hc
  unfold readNat
  rw [if_pos ⟨Nat.toDigits_ne_nil, hdigits⟩, Nat.ofDigitChars_ten_toDigits]

/-- The characters of a printed number. -/
def digits (n : Int) : List Char := (toString n).toList

theorem digits_ofNat (m : Nat) : digits (Int.ofNat m) = Nat.toDigits 10 m := by
  show (Nat.repr m).toList = Nat.toDigits 10 m
  rw [Nat.repr_eq_ofList_toDigits, String.toList_ofList]

theorem digits_negSucc (m : Nat) : digits (Int.negSucc m) = '-' :: Nat.toDigits 10 (m + 1) := by
  show ("-" ++ Nat.repr (m + 1)).toList = _
  rw [String.toList_append, Nat.repr_eq_ofList_toDigits, String.toList_ofList, String.toList_ofList]
  rfl

theorem digits_ne_nil (n : Int) : digits n ≠ [] := by
  cases n with
  | ofNat m => rw [digits_ofNat]; exact Nat.toDigits_ne_nil
  | negSucc m => rw [digits_negSucc]; exact List.cons_ne_nil _ _

/-- A number is printed with digits, after at most a minus sign. -/
theorem of_mem_digits {n : Int} {c : Char} (h : c ∈ digits n) : c = '-' ∨ c.isDigit = true := by
  have hdigit : ∀ m, c ∈ Nat.toDigits 10 m → c.isDigit = true := fun m hc =>
    Nat.isDigit_of_mem_toDigits (by decide) (by decide) hc
  cases n with
  | ofNat m =>
      rw [digits_ofNat] at h
      exact .inr (hdigit m h)
  | negSucc m =>
      rw [digits_negSucc] at h
      exact (List.mem_cons.mp h).imp id fun h => hdigit (m + 1) h

/-- A number is read back from its decimal text. -/
theorem readInt_digits (n : Int) : readInt (digits n) = some n := by
  cases n with
  | ofNat m =>
      rw [digits_ofNat]
      unfold readInt
      split
      · -- no digit is a minus sign
        rename_i ds hminus
        have hsign : ('-').isDigit = true :=
          Nat.isDigit_of_mem_toDigits (b := 10) (n := m) (by decide) (by decide)
            (hminus ▸ List.mem_cons_self)
        exact absurd hsign (by decide)
      · rw [readNat_toDigits]
        rfl
  | negSucc m =>
      rw [digits_negSucc]
      simp only [readInt, readNat_toDigits]
      rfl

/-! ## Lines of numbers -/

/-- The numbers of a line; an empty line has none. -/
def readLine (line : List Char) : Option (List Int) :=
  if line = [] then some [] else (line.splitOn ' ').mapM readInt

/-- The lines of a text that ends in a line feed, with their numbers. -/
def readRows (text : List Char) : Option (List (List Int)) :=
  if (text.splitOn '\n').getLast? = some [] then (text.splitOn '\n').dropLast.mapM readLine else none

/-- The line of these numbers. -/
def line (row : List Int) : List Char := [' '].intercalate (row.map digits)

/-- The text of a table. -/
def printRows (rows : List (List Int)) : List Char := (rows.map fun row => line row ++ ['\n']).flatten

theorem printRows_append (rows rows' : List (List Int)) :
    printRows (rows ++ rows') = printRows rows ++ printRows rows' := by
  unfold printRows
  rw [List.map_append, List.flatten_append]

theorem printRows_one (n : Int) : printRows [[n]] = digits n ++ ['\n'] := by
  simp [printRows, line, List.intercalate]

theorem printRows_two (m n : Int) : printRows [[m, n]] = digits m ++ ' ' :: digits n ++ ['\n'] := by
  simp [printRows, line, List.intercalate]

theorem mapM_some {α β : Type} {f : α → Option β} {g : β → α} (h : ∀ b, f (g b) = some b)
    (bs : List β) : (bs.map g).mapM f = some bs := by
  induction bs with
  | nil => rfl
  | cons b bs ih =>
      rw [List.map_cons, List.mapM_cons, h, ih]
      rfl

theorem not_mem_digits {n : Int} {c : Char} (hminus : c ≠ '-') (hdigit : c.isDigit = false) :
    c ∉ digits n := by
  intro h
  rcases of_mem_digits h with rfl | h
  · exact hminus rfl
  · rw [hdigit] at h
    cases h

theorem not_mem_line {row : List Int} : '\n' ∉ line row := by
  intro h
  rcases Separated.mem_intercalate h with h | ⟨p, hp, hc⟩
  · exact absurd h (by decide)
  · obtain ⟨n, _, rfl⟩ := List.mem_map.mp hp
    exact not_mem_digits (by decide) (by decide) hc

theorem readLine_line (row : List Int) : readLine (line row) = some row := by
  unfold readLine
  cases row with
  | nil => rfl
  | cons n row =>
      have hne : line (n :: row) ≠ [] := by
        unfold line
        rw [List.map_cons, Separated.intercalate_cons]
        exact List.append_ne_nil_of_left_ne_nil (digits_ne_nil n) _
      have hblank : ∀ p ∈ (n :: row).map digits, ' ' ∉ p := by
        intro p hp
        obtain ⟨m, _, rfl⟩ := List.mem_map.mp hp
        exact not_mem_digits (by decide) (by decide)
      rw [if_neg hne, line, List.splitOn_intercalate _ hblank (List.cons_ne_nil _ _)]
      exact mapM_some readInt_digits (n :: row)

/-- A printed table is read back. -/
theorem readRows_printRows (rows : List (List Int)) : readRows (printRows rows) = some rows := by
  have hsplit : (printRows rows).splitOn '\n' = rows.map line ++ [[]] := by
    have hlines : printRows rows = ['\n'].intercalate (rows.map line ++ [[]]) := by
      rw [← Separated.flatten_terminated, List.map_map]
      rfl
    rw [hlines]
    refine List.splitOn_intercalate _ (fun l hl => ?_) (by simp)
    rcases List.mem_append.mp hl with hl | hl
    · obtain ⟨row, _, rfl⟩ := List.mem_map.mp hl
      exact not_mem_line
    · rw [List.mem_singleton.mp hl]
      exact List.not_mem_nil
  unfold readRows
  rw [hsplit, if_pos (by simp), List.dropLast_concat]
  exact mapM_some readLine_line rows

end Decimal
