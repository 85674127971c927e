import Mathlib.Computability.Language
import Mathlib.Data.List.Basic

/-!
# `Lib.Separated` — words made of pieces with one separator between them

A word over any alphabet is cut at its separators by `List.splitOn`, and its pieces are put together again
by `List.intercalate`. The language `l * ({[sep]} * l)∗` (one piece, then any number of separators with a
piece after each) is described by the pieces of its words, and so is the absence of empty pieces.
-/

namespace Separated

open Computability

variable {α : Type} {sep : α} {w : List α}

/-! ## Pieces put together -/

/-- Every piece but the first brings its separator. -/
theorem intercalate_cons (sep : α) (p : List α) (ps : List (List α)) :
    [sep].intercalate (p :: ps) = p ++ (ps.map (sep :: ·)).flatten := by
  induction ps generalizing p with
  | nil => simp [List.intercalate]
  | cons q ps ih =>
      have htail := ih q
      simp only [List.intercalate, List.intersperse_cons_cons, List.flatten_cons, List.map_cons] at htail ⊢
      rw [htail]
      simp

/-- Pieces with their separator after them are pieces before an empty one. -/
theorem flatten_terminated (sep : α) (ps : List (List α)) :
    (ps.map (· ++ [sep])).flatten = [sep].intercalate (ps ++ [[]]) := by
  induction ps with
  | nil => rfl
  | cons p ps ih =>
      have htail : (ps.map (· ++ [sep])).flatten = [sep].intercalate (ps ++ [[]]) := ih
      rw [List.map_cons, List.flatten_cons, htail, List.cons_append, intercalate_cons]
      cases ps with
      | nil =>
          rw [List.append_assoc]
          rfl
      | cons q ps =>
          rw [List.cons_append, intercalate_cons]
          simp

theorem mem_intercalate {ps : List (List α)} {c : α} (h : c ∈ [sep].intercalate ps) :
    c = sep ∨ ∃ p ∈ ps, c ∈ p := by
  cases ps with
  | nil => exact absurd h List.not_mem_nil
  | cons p ps =>
      rw [intercalate_cons] at h
      rcases List.mem_append.mp h with h | h
      · exact .inr ⟨p, List.mem_cons_self, h⟩
      · obtain ⟨g, hg, hc⟩ := List.mem_flatten.mp h
        obtain ⟨q, hq, rfl⟩ := List.mem_map.mp hg
        exact (List.mem_cons.mp hc).imp id fun hc => ⟨q, List.mem_cons_of_mem p hq, hc⟩

/-- The words of a separated language are the ones its pieces make. -/
theorem mem_separated {l : Language α} :
    w ∈ l * (({[sep]} : Language α) * l)∗ ↔
      ∃ p ps, (∀ q ∈ p :: ps, q ∈ l) ∧ w = [sep].intercalate (p :: ps) := by
  constructor
  · intro h
    obtain ⟨p, hp, tail, htail, rfl⟩ := Language.mem_mul.mp h
    obtain ⟨groups, rfl, hgroups⟩ := Language.mem_kstar.mp htail
    -- every group is a separator and a piece
    have hpieces : ∃ ps : List (List α), (∀ q ∈ ps, q ∈ l) ∧ groups = ps.map (sep :: ·) := by
      clear h htail
      induction groups with
      | nil => exact ⟨[], fun q hq => absurd hq List.not_mem_nil, rfl⟩
      | cons g groups ih =>
          obtain ⟨ps, hps, rfl⟩ := ih fun y hy => hgroups y (List.mem_cons_of_mem g hy)
          obtain ⟨s, hs, q, hq, rfl⟩ := Language.mem_mul.mp (hgroups g List.mem_cons_self)
          obtain rfl : s = [sep] := hs
          refine ⟨q :: ps, fun x hx => ?_, rfl⟩
          rcases List.mem_cons.mp hx with rfl | hx
          · exact hq
          · exact hps x hx
    obtain ⟨ps, hps, rfl⟩ := hpieces
    refine ⟨p, ps, fun q hq => ?_, (intercalate_cons sep p ps).symm⟩
    rcases List.mem_cons.mp hq with rfl | hq
    · exact hp
    · exact hps q hq
  · rintro ⟨p, ps, hmem, rfl⟩
    rw [intercalate_cons]
    refine Language.mem_mul.mpr ⟨p, hmem p List.mem_cons_self, _, ?_, rfl⟩
    refine Language.join_mem_kstar fun y hy => ?_
    obtain ⟨q, hq, rfl⟩ := List.mem_map.mp hy
    exact Language.mem_mul.mpr ⟨[sep], rfl, q, hmem q (List.mem_cons_of_mem p hq), rfl⟩

/-! ## Pieces of a word -/

variable [BEq α] [LawfulBEq α]

/-- The pieces of a word contain its characters, except the separators. -/
theorem mem_of_mem_splitOn {p : List α} {c : α} (hp : p ∈ w.splitOn sep) (hc : c ∈ p) :
    c ∈ w ∧ c ≠ sep := by
  induction w generalizing p with
  | nil =>
      obtain rfl : p = [] := by simpa using hp
      exact absurd hc List.not_mem_nil
  | cons a w ih =>
      rw [List.splitOn_cons_eq_if_modifyHead] at hp
      by_cases ha : (a == sep) = true
      · rw [if_pos ha] at hp
        rcases List.mem_cons.mp hp with rfl | hp
        · exact absurd hc List.not_mem_nil
        · exact ⟨List.mem_cons_of_mem a (ih hp hc).1, (ih hp hc).2⟩
      · rw [if_neg ha] at hp
        cases hw : w.splitOn sep with
        | nil => exact absurd hw (List.splitOn_ne_nil sep w)
        | cons q qs =>
            rw [hw, List.modifyHead_cons] at hp
            rcases List.mem_cons.mp hp with rfl | hp
            · rcases List.mem_cons.mp hc with rfl | hc
              · exact ⟨List.mem_cons_self, fun heq => ha (heq ▸ beq_self_eq_true c)⟩
              · have hq := ih (hw ▸ List.mem_cons_self) hc
                exact ⟨List.mem_cons_of_mem a hq.1, hq.2⟩
            · have hq := ih (hw ▸ List.mem_cons_of_mem q hp) hc
              exact ⟨List.mem_cons_of_mem a hq.1, hq.2⟩

/-- A word has an empty piece when it is empty, when it begins or ends with a separator, and when two
separators meet. -/
theorem nil_mem_splitOn_iff :
    [] ∈ w.splitOn sep ↔
      w = [] ∨ w.head? = some sep ∨ w.getLast? = some sep ∨ [sep, sep] <:+: w := by
  constructor
  · intro h
    obtain ⟨before, behind, hpieces⟩ := List.append_of_mem h
    have hw : w = [sep].intercalate (before ++ [] :: behind) := by
      rw [← hpieces, List.intercalate_splitOn]
    -- the empty piece may stand first, last, or between two others
    cases before with
    | nil =>
        rw [List.nil_append, intercalate_cons] at hw
        cases behind with
        | nil => exact .inl hw
        | cons q qs => exact .inr (.inl (by rw [hw]; rfl))
    | cons p ps =>
        rw [List.cons_append, intercalate_cons, List.map_append, List.flatten_append] at hw
        cases behind with
        | nil =>
            refine .inr (.inr (.inl ?_))
            rw [hw]
            simp
        | cons q qs =>
            refine .inr (.inr (.inr ⟨p ++ (ps.map (sep :: ·)).flatten, q ++ (qs.map (sep :: ·)).flatten, ?_⟩))
            rw [hw]
            simp
  · rintro (rfl | h | h | ⟨a, b, rfl⟩)
    · simp
    · obtain ⟨w', rfl⟩ := List.head?_eq_some_iff.mp h
      have hsplit := List.splitOn_append_cons_self [] w' (a := sep)
      rw [List.nil_append, List.splitOn_nil] at hsplit
      rw [hsplit]
      exact List.mem_cons_self
    · obtain ⟨w', rfl⟩ := List.getLast?_eq_some_iff.mp h
      rw [List.splitOn_append_cons_self]
      simp
    · rw [List.append_assoc, List.cons_append, List.singleton_append, List.splitOn_append_cons_self]
      have hsplit := List.splitOn_append_cons_self [] b (a := sep)
      rw [List.nil_append, List.splitOn_nil] at hsplit
      rw [hsplit]
      simp

end Separated
