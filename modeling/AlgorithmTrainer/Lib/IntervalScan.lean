import Mathlib.Data.Finset.Card
import Mathlib.Data.List.Perm.Subperm
import Mathlib.Order.Bounds.Basic

/-!
# `Lib.IntervalScan` — the earliest-finish scan

Intervals have a start and a finish in a linear order, and `clear f s` says that an interval that starts at
`s` may follow one that finishes at `f`: `f ≤ s` for half-open intervals, `f < s` for closed ones. A point
hits an interval that does not finish before it and may not follow it.

Two intervals that are apart are never hit by one point, so there are no more intervals that are pairwise
apart than points that hit all of them. The scan takes, in the order of finishing, every interval that is
clear of the last one taken. What it takes is pairwise apart, and their finishing points hit every
interval: it is a largest choice, and the points are fewest.
-/

namespace IntervalScan

variable {ι τ : Type*} [LinearOrder τ]

/-- When an interval may follow another, by the finish of the one and the start of the other. -/
structure Clearance (τ : Type*) [LinearOrder τ] where
  clear : τ → τ → Prop
  decidable : DecidableRel clear
  /-- What may follow an interval may follow one that finishes earlier. -/
  mono : ∀ {f f' s}, f' ≤ f → clear f s → clear f' s

instance (C : Clearance τ) : DecidableRel C.clear := C.decidable

/-- Half-open intervals: one may start where another finishes. -/
def Clearance.halfOpen (τ : Type*) [LinearOrder τ] : Clearance τ where
  clear := (· ≤ ·)
  decidable := inferInstance
  mono := le_trans

/-- Closed intervals. -/
def Clearance.closed (τ : Type*) [LinearOrder τ] : Clearance τ where
  clear := (· < ·)
  decidable := inferInstance
  mono := lt_of_le_of_lt

section definitions
variable (C : Clearance τ) (start finish : ι → τ)

/-- One of the two may follow the other. -/
def Apart (i j : ι) : Prop := C.clear (finish i) (start j) ∨ C.clear (finish j) (start i)

/-- The point meets the interval. -/
def Hits (p : τ) (i : ι) : Prop := p ≤ finish i ∧ ¬C.clear p (start i)

/-- The scan: `last` is where the last interval taken finishes. -/
def scan : Option τ → List ι → List ι
  | _, [] => []
  | last, i :: is =>
      if ∀ f ∈ last, C.clear f (start i) then i :: scan (some (finish i)) is else scan last is

end definitions

variable {C : Clearance τ} {start finish : ι → τ}

theorem Apart.symm {i j : ι} (h : Apart C start finish i j) : Apart C start finish j i := Or.symm h

/-- No point hits two intervals that are apart. -/
theorem Hits.not_apart {p : τ} {i j : ι} (hi : Hits C start finish p i)
    (hj : Hits C start finish p j) : ¬Apart C start finish i j := by
  rintro (h | h)
  · exact hj.2 (C.mono hi.1 h)
  · exact hi.2 (C.mono hj.1 h)

/-- **Intervals that are pairwise apart** are not more than the points that hit all of them. -/
theorem length_le_card {chosen : List ι} {points : Finset τ}
    (hapart : chosen.Pairwise (Apart C start finish))
    (hhit : ∀ i ∈ chosen, ∃ p ∈ points, Hits C start finish p i) : chosen.length ≤ points.card := by
  induction chosen generalizing points with
  | nil => exact Nat.zero_le _
  | cons i is ih =>
      obtain ⟨hi, his⟩ := List.pairwise_cons.mp hapart
      obtain ⟨p, hp, hpi⟩ := hhit i List.mem_cons_self
      -- the point that hits the first interval hits no other
      have hrest : ∀ j ∈ is, ∃ q ∈ points.erase p, Hits C start finish q j := by
        intro j hj
        obtain ⟨q, hq, hqj⟩ := hhit j (List.mem_cons_of_mem i hj)
        refine ⟨q, Finset.mem_erase.mpr ⟨fun heq => ?_, hq⟩, hqj⟩
        exact hpi.not_apart (heq ▸ hqj) (hi j hj)
      have hlength := ih his hrest
      rw [Finset.card_erase_of_mem hp] at hlength
      have hpos : 0 < points.card := Finset.card_pos.mpr ⟨p, hp⟩
      rw [List.length_cons]
      omega

/-! ## What the scan takes -/

theorem scan_cons_clear {last : Option τ} {i : ι} {is : List ι}
    (h : ∀ f ∈ last, C.clear f (start i)) :
    scan C start finish last (i :: is) = i :: scan C start finish (some (finish i)) is := if_pos h

theorem scan_cons_not_clear {last : Option τ} {i : ι} {is : List ι}
    (h : ¬∀ f ∈ last, C.clear f (start i)) :
    scan C start finish last (i :: is) = scan C start finish last is := if_neg h

/-- A last interval of which every start is clear does not count. -/
theorem scan_some_eq_none {f : τ} {is : List ι} (h : ∀ i ∈ is, C.clear f (start i)) :
    scan C start finish (some f) is = scan C start finish none is := by
  cases is with
  | nil => rfl
  | cons i is =>
      rw [scan_cons_clear fun g hg => Option.mem_some.mp hg ▸ h i List.mem_cons_self,
        scan_cons_clear fun g hg => absurd hg (Option.not_mem_none g)]

theorem scan_sublist (last : Option τ) (is : List ι) : (scan C start finish last is).Sublist is := by
  induction is generalizing last with
  | nil => exact List.Sublist.slnil
  | cons i is ih =>
      by_cases h : ∀ f ∈ last, C.clear f (start i)
      · rw [scan_cons_clear h]
        exact (ih (some (finish i))).cons_cons i
      · rw [scan_cons_not_clear h]
        exact (ih last).cons i

/-- In the order of finishing, what is taken is clear of the last interval taken before. -/
theorem clear_of_mem_scan {last : Option τ} {is : List ι}
    (hsorted : is.Pairwise fun i j => finish i ≤ finish j) (hlast : ∀ f ∈ last, ∀ i ∈ is, f ≤ finish i)
    {j : ι} (hj : j ∈ scan C start finish last is) : ∀ f ∈ last, C.clear f (start j) := by
  induction is generalizing last with
  | nil => exact absurd hj List.not_mem_nil
  | cons i is ih =>
      obtain ⟨hi, his⟩ := List.pairwise_cons.mp hsorted
      by_cases h : ∀ f ∈ last, C.clear f (start i)
      · rw [scan_cons_clear h] at hj
        rcases List.mem_cons.mp hj with rfl | hj
        · exact h
        · intro f hf
          have hafter : ∀ g ∈ some (finish i), C.clear g (start j) :=
            ih his (fun g hg k hk => (Option.mem_some.mp hg) ▸ hi k hk) hj
          exact C.mono (hlast f hf i List.mem_cons_self) (hafter _ rfl)
      · rw [scan_cons_not_clear h] at hj
        exact ih his (fun f hf k hk => hlast f hf k (List.mem_cons_of_mem i hk)) hj

theorem scan_apart (last : Option τ) {is : List ι}
    (hsorted : is.Pairwise fun i j => finish i ≤ finish j) :
    (scan C start finish last is).Pairwise (Apart C start finish) := by
  induction is generalizing last with
  | nil => exact List.Pairwise.nil
  | cons i is ih =>
      obtain ⟨hi, his⟩ := List.pairwise_cons.mp hsorted
      by_cases h : ∀ f ∈ last, C.clear f (start i)
      · rw [scan_cons_clear h]
        refine List.pairwise_cons.mpr ⟨fun j hj => .inl ?_, ih _ his⟩
        exact clear_of_mem_scan his (fun g hg k hk => (Option.mem_some.mp hg) ▸ hi k hk) hj _ rfl
      · rw [scan_cons_not_clear h]
        exact ih last his

/-- Where the intervals taken finish, and where the one before them did, is a point in every interval. -/
theorem scan_hits {last : Option τ} {is : List ι}
    (hsorted : is.Pairwise fun i j => finish i ≤ finish j)
    (hlast : ∀ f ∈ last, ∀ i ∈ is, f ≤ finish i)
    (hproper : ∀ i ∈ is, ¬C.clear (finish i) (start i)) {j : ι} (hj : j ∈ is) :
    ∃ p, (p ∈ last ∨ ∃ i ∈ scan C start finish last is, p = finish i) ∧ Hits C start finish p j := by
  induction is generalizing last with
  | nil => exact absurd hj List.not_mem_nil
  | cons i is ih =>
      obtain ⟨hi, his⟩ := List.pairwise_cons.mp hsorted
      have hproper' : ∀ k ∈ is, ¬C.clear (finish k) (start k) := fun k hk =>
        hproper k (List.mem_cons_of_mem i hk)
      by_cases h : ∀ f ∈ last, C.clear f (start i)
      · rw [scan_cons_clear h]
        rcases List.mem_cons.mp hj with rfl | hj
        · exact ⟨finish j, .inr ⟨j, List.mem_cons_self, rfl⟩, le_rfl, hproper j List.mem_cons_self⟩
        · have hlast' : ∀ g ∈ some (finish i), ∀ k ∈ is, g ≤ finish k := fun g hg k hk =>
            (Option.mem_some.mp hg) ▸ hi k hk
          obtain ⟨p, hp, hhit⟩ := ih his hlast' hproper' hj
          refine ⟨p, .inr ?_, hhit⟩
          rcases hp with hp | ⟨k, hk, rfl⟩
          · exact ⟨i, List.mem_cons_self, (Option.mem_some.mp hp).symm⟩
          · exact ⟨k, List.mem_cons_of_mem i hk, rfl⟩
      · rw [scan_cons_not_clear h]
        rcases List.mem_cons.mp hj with rfl | hj
        · -- the interval was passed over: it meets the last point
          push Not at h
          obtain ⟨f, hf, hmeets⟩ := h
          exact ⟨f, .inl hf, hlast f hf j List.mem_cons_self, hmeets⟩
        · exact ih his (fun f hf k hk => hlast f hf k (List.mem_cons_of_mem i hk)) hproper' hj

/-! ## The scan is optimal -/

section optimal
variable {is sorted : List ι} (hperm : sorted.Perm is)
  (hsorted : sorted.Pairwise fun i j => finish i ≤ finish j)
  (hproper : ∀ i ∈ is, ¬C.clear (finish i) (start i))

/-- The points where the intervals taken finish. -/
def finishes [DecidableEq τ] (finish : ι → τ) (taken : List ι) : Finset τ := (taken.map finish).toFinset

include hperm hsorted hproper

theorem finishes_hit : ∀ i ∈ is,
    ∃ p ∈ finishes finish (scan C start finish none sorted), Hits C start finish p i := by
  intro i hi
  have hlast : ∀ f ∈ (none : Option τ), ∀ k ∈ sorted, f ≤ finish k := fun f hf =>
    absurd hf (Option.not_mem_none f)
  obtain ⟨p, hp, hhit⟩ := scan_hits hsorted hlast
    (fun k hk => hproper k (hperm.mem_iff.mp hk)) (hperm.mem_iff.mpr hi)
  rcases hp with hp | ⟨k, hk, rfl⟩
  · exact absurd hp (Option.not_mem_none p)
  · exact ⟨finish k, List.mem_toFinset.mpr (List.mem_map_of_mem hk), hhit⟩

/-- **The scan takes as many as can be chosen**: no choice of intervals that are pairwise apart is larger. -/
theorem scan_isGreatest :
    IsGreatest {n | ∃ chosen : List ι, chosen.Sublist is ∧ chosen.Pairwise (Apart C start finish)
      ∧ chosen.length = n} (scan C start finish none sorted).length := by
  constructor
  · -- the choice, in the order the intervals were given
    have htaken : (scan C start finish none sorted).Subperm is :=
      (scan_sublist none sorted).subperm.trans hperm.subperm
    obtain ⟨chosen, hchosen, hsub⟩ := htaken
    exact ⟨chosen, hsub, hchosen.symm.pairwise (scan_apart none hsorted) fun h => h.symm,
      hchosen.length_eq⟩
  · rintro n ⟨chosen, hsub, hapart, rfl⟩
    have hcard := length_le_card hapart fun i hi => finishes_hit hperm hsorted hproper i (hsub.subset hi)
    exact hcard.trans ((List.toFinset_card_le _).trans_eq (List.length_map finish))

/-- **The scan counts the points that are needed**: no set of points that hits all intervals is smaller. -/
theorem scan_isLeast :
    IsLeast {n | ∃ points : Finset τ, (∀ i ∈ is, ∃ p ∈ points, Hits C start finish p i)
      ∧ points.card = n} (scan C start finish none sorted).length := by
  have hbound : ∀ points : Finset τ, (∀ i ∈ is, ∃ p ∈ points, Hits C start finish p i) →
      (scan C start finish none sorted).length ≤ points.card := fun points hpoints =>
    length_le_card (scan_apart none hsorted) fun i hi =>
      hpoints i (hperm.mem_iff.mp ((scan_sublist none sorted).subset hi))
  have hhit := finishes_hit hperm hsorted hproper
  constructor
  · refine ⟨_, hhit, le_antisymm ?_ (hbound _ hhit)⟩
    exact (List.toFinset_card_le _).trans_eq (List.length_map finish)
  · rintro n ⟨points, hpoints, rfl⟩
    exact hbound points hpoints

end optimal

end IntervalScan
