import Mathlib.Algebra.BigOperators.Fin

/-!
# `Lib.PairCount` — counting the related pairs of a list

A pass over a list meets every related pair at its later element, when it counts the earlier elements that
are related to it. `pairs` counts them the other way round, at the earlier element; the number is that of
the index pairs.
-/

namespace PairCount

variable {α : Type*} (R : α → α → Bool)

/-- The related pairs of a list, an earlier and a later element each. -/
def pairs : List α → Nat
  | [] => 0
  | x :: xs => xs.countP (R x) + pairs xs

/-- The related pairs of an element of the one list and an element of the other. -/
def across (earlier later : List α) : Nat :=
  (later.map fun y => earlier.countP fun x => R x y).sum

variable {R}

theorem across_cons (earlier : List α) (y : α) (later : List α) :
    across R earlier (y :: later) = (earlier.countP fun x => R x y) + across R earlier later := by
  unfold across
  rw [List.map_cons, List.sum_cons]

/-- One more earlier element. -/
theorem across_concat (earlier : List α) (x : α) (later : List α) :
    across R (earlier ++ [x]) later = across R earlier later + later.countP (R x) := by
  induction later with
  | nil => rfl
  | cons y later ih =>
      rw [across_cons, across_cons, ih, List.countP_append, List.countP_singleton, List.countP_cons]
      omega

theorem across_nil (later : List α) : across R [] later = 0 := by
  induction later with
  | nil => rfl
  | cons y later ih => rw [across_cons, ih, List.countP_nil]

/-- The elements that satisfy a predicate, by their indices. -/
theorem countP_eq_sum (p : α → Bool) (l : List α) :
    l.countP p = ∑ i : Fin l.length, if p (l.get i) = true then 1 else 0 := by
  induction l with
  | nil => rfl
  | cons x l ih =>
      rw [List.countP_cons, ih, Nat.add_comm]
      exact (Fin.sum_univ_succ fun i : Fin (l.length + 1) =>
        if p ((x :: l).get i) = true then 1 else 0).symm

theorem pairs_eq_sum (l : List α) :
    pairs R l = ∑ i : Fin l.length, ∑ j : Fin l.length,
      if i < j ∧ R (l.get i) (l.get j) = true then 1 else 0 := by
  induction l with
  | nil => rfl
  | cons x l ih =>
      -- the pairs of the first element, then the pairs of the others
      have hsplit : ∀ f : Fin (l.length + 1) → Fin (l.length + 1) → Nat,
          (∀ i, f i 0 = 0) → ∑ i, ∑ j, f i j
            = (∑ j, f 0 (Fin.succ j)) + ∑ i, ∑ j, f (Fin.succ i) (Fin.succ j) := by
        intro f hzero
        rw [Fin.sum_univ_succ]
        simp only [Fin.sum_univ_succ (f _), hzero, Nat.zero_add]
      rw [pairs, ih, countP_eq_sum]
      refine Eq.trans ?_ (hsplit _ fun i => if_neg fun h => absurd h.1 (Fin.not_lt_zero i)).symm
      congr 1
      · refine Finset.sum_congr rfl fun j _ => ?_
        simp
      · refine Finset.sum_congr rfl fun i _ => Finset.sum_congr rfl fun j _ => ?_
        simp

/-- **The related pairs are the related index pairs.** -/
theorem card_indexPairs (l : List α) :
    (Finset.univ.filter fun p : Fin l.length × Fin l.length =>
      p.1 < p.2 ∧ R (l.get p.1) (l.get p.2) = true).card = pairs R l := by
  rw [pairs_eq_sum, Finset.card_filter, Fintype.sum_prod_type]

end PairCount
