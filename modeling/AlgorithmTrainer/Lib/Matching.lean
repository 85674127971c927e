import Mathlib.Data.Fintype.Basic
import Mathlib.Data.List.FinRange
import Mathlib.Data.List.Perm.Basic
import Mathlib.Data.List.Perm.Subperm
import Mathlib.Order.Bounds.Basic

/-!
# `Lib.Matching` — matching demands with supplies

There are `n` demands and `m` supplies in a linear order, and an assignment pairs some of them, each at
most once. A pair is satisfied when the supply is at least the demand.

For every threshold a satisfied pair has its demand below it or its supply at or above it, so an
assignment satisfies at most as many demands as there are demands below and supplies at or above. `serve`
gives each supply in ascending order to the least demand that is left, if it satisfies it. The last supply
that is passed over yields a threshold at which the bound is met.
-/

namespace Matching

/-- Pairs of a demand and a supply, each of which is used at most once. -/
structure Assignment (n m : Nat) where
  pairs : List (Fin n × Fin m)
  demand_once : (pairs.map Prod.fst).Nodup
  supply_once : (pairs.map Prod.snd).Nodup

variable {τ : Type*} [LinearOrder τ] {n m : Nat}

/-- How many demands are satisfied. -/
def Assignment.satisfied (demand : Fin n → τ) (supply : Fin m → τ) (a : Assignment n m) : Nat :=
  a.pairs.countP fun p => demand p.1 ≤ supply p.2

/-- The least demand takes the least supply that satisfies it; both lists are ascending. -/
def serve : List τ → List τ → Nat
  | _, [] => 0
  | [], _ :: _ => 0
  | d :: ds, s :: ss => if d ≤ s then serve ds ss + 1 else serve (d :: ds) ss

theorem serve_nil (ss : List τ) : serve [] ss = 0 := by
  cases ss <;> rfl

theorem serve_nil_right (ds : List τ) : serve ds [] = 0 := by
  cases ds <;> rfl

/-- How many demands are below the threshold. -/
def below (t : τ) (ds : List τ) : Nat := ds.countP fun d => d < t

/-- How many supplies are at or above the threshold. -/
def above (t : τ) (ss : List τ) : Nat := ss.countP fun s => t ≤ s

theorem below_cons (t d : τ) (ds : List τ) :
    below t (d :: ds) = below t ds + if d < t then 1 else 0 := by
  simp [below, List.countP_cons]

theorem above_cons (t s : τ) (ss : List τ) :
    above t (s :: ss) = above t ss + if t ≤ s then 1 else 0 := by
  simp [above, List.countP_cons]

theorem above_le_length (t : τ) (ss : List τ) : above t ss ≤ ss.length := List.countP_le_length

/-- Every supply is counted at a threshold that none is below. -/
theorem above_eq_length {t : τ} {ss : List τ} (h : ∀ s ∈ ss, t ≤ s) : above t ss = ss.length :=
  List.countP_eq_length.mpr fun s hs => decide_eq_true (h s hs)

/-- No demand is below the least one. -/
theorem below_least {d : τ} {ds : List τ} (h : (d :: ds).Pairwise (· ≤ ·)) :
    below d (d :: ds) = 0 := by
  refine List.countP_eq_zero.mpr fun x hx => ?_
  rw [decide_eq_true_eq, not_lt]
  rcases List.mem_cons.mp hx with rfl | hx
  · exact le_rfl
  · exact (List.pairwise_cons.mp h).1 x hx

/-! ## No assignment satisfies more -/

section bounds
variable {demand : Fin n → τ} {supply : Fin m → τ} (a : Assignment n m)

theorem countP_le_add {α : Type*} {p q r : α → Bool} (h : ∀ x, p x = true → q x = true ∨ r x = true)
    (l : List α) : l.countP p ≤ l.countP q + l.countP r := by
  induction l with
  | nil => exact Nat.zero_le _
  | cons x l ih =>
      rw [List.countP_cons, List.countP_cons, List.countP_cons]
      by_cases hp : p x = true
      · rcases h x hp with hq | hr
        · rw [if_pos hp, if_pos hq]
          omega
        · rw [if_pos hp, if_pos hr]
          omega
      · rw [if_neg hp]
        omega

theorem countP_le_finRange {k : Nat} {l : List (Fin k)} (hl : l.Nodup) (p : Fin k → Bool) :
    l.countP p ≤ (List.finRange k).countP p :=
  (List.subperm_of_subset hl fun i _ => List.mem_finRange i).countP_le p

/-- **The bound of a threshold**: the demands below it, and the supplies at or above it. -/
theorem satisfied_le_threshold (t : τ) :
    a.satisfied demand supply ≤ below t ((List.finRange n).map demand)
      + above t ((List.finRange m).map supply) := by
  have hpair : ∀ p : Fin n × Fin m, decide (demand p.1 ≤ supply p.2) = true →
      decide (demand p.1 < t) = true ∨ decide (t ≤ supply p.2) = true := by
    intro p hp
    have hle : demand p.1 ≤ supply p.2 := of_decide_eq_true hp
    rcases lt_or_ge (demand p.1) t with hlt | hge
    · exact .inl (decide_eq_true hlt)
    · exact .inr (decide_eq_true (hge.trans hle))
  have hdemand := countP_le_finRange a.demand_once fun i => decide (demand i < t)
  have hsupply := countP_le_finRange a.supply_once fun j => decide (t ≤ supply j)
  unfold below above
  rw [List.countP_map] at hdemand hsupply ⊢
  rw [List.countP_map]
  exact (countP_le_add hpair a.pairs).trans (Nat.add_le_add hdemand hsupply)

theorem satisfied_le_demands : a.satisfied demand supply ≤ n := by
  have hlength := (List.subperm_of_subset a.demand_once fun i _ => List.mem_finRange i).length_le
  rw [List.length_map, List.length_finRange] at hlength
  exact List.countP_le_length.trans hlength

end bounds

/-- **Where the bound is met**: every demand is served, or some threshold has no more demands below it and
supplies at or above it than are served. -/
theorem serve_bound {ds ss : List τ} (hds : ds.Pairwise (· ≤ ·)) (hss : ss.Pairwise (· ≤ ·)) :
    serve ds ss = ds.length ∨ ∃ t, below t ds + above t ss ≤ serve ds ss := by
  induction ss generalizing ds with
  | nil =>
      cases ds with
      | nil => exact .inl rfl
      | cons d ds => exact .inr ⟨d, (below_least hds).le⟩
  | cons s ss ih =>
      obtain ⟨hs, hss'⟩ := List.pairwise_cons.mp hss
      cases ds with
      | nil => exact .inl rfl
      | cons d ds =>
          have hleast := below_least hds
          have hlength := above_le_length d ss
          -- a threshold at or below the supply counts all supplies, and the least demand will do as well
          have hall : ∀ t, t ≤ s → above t ss = ss.length := fun t ht =>
            above_eq_length fun x hx => ht.trans (hs x hx)
          by_cases hserve : d ≤ s
          · rw [serve, if_pos hserve]
            rcases ih (List.pairwise_cons.mp hds).2 hss' with h | ⟨t, ht⟩
            · exact .inl (by rw [h, List.length_cons])
            · by_cases hts : t ≤ s
              · rw [hall t hts] at ht
                refine .inr ⟨d, ?_⟩
                rw [hleast, above_cons, if_pos hserve]
                omega
              · refine .inr ⟨t, ?_⟩
                rw [below_cons, above_cons, if_neg hts]
                split <;> omega
          · rw [serve, if_neg hserve]
            rcases ih hds hss' with h | ⟨t, ht⟩
            · exact .inl h
            · by_cases hts : t ≤ s
              · rw [hall t hts] at ht
                refine .inr ⟨d, ?_⟩
                rw [hleast, above_cons, if_neg hserve]
                omega
              · refine .inr ⟨t, ?_⟩
                rwa [above_cons, if_neg hts]

/-! ## Some assignment satisfies as many -/

/-- The pairs that are served. -/
theorem serve_pairs (ds ss : List τ) :
    ∃ pairs : List (τ × τ), (pairs.map Prod.fst).Sublist ds ∧ (pairs.map Prod.snd).Sublist ss
      ∧ (∀ p ∈ pairs, p.1 ≤ p.2) ∧ pairs.length = serve ds ss := by
  induction ss generalizing ds with
  | nil => exact ⟨[], List.nil_sublist ds, List.nil_sublist [], fun p hp => absurd hp List.not_mem_nil,
      (serve_nil_right ds).symm⟩
  | cons s ss ih =>
      cases ds with
      | nil => exact ⟨[], List.nil_sublist [], List.nil_sublist _,
          fun p hp => absurd hp List.not_mem_nil, rfl⟩
      | cons d ds =>
          by_cases hserve : d ≤ s
          · obtain ⟨pairs, hfst, hsnd, hle, hlength⟩ := ih ds
            refine ⟨(d, s) :: pairs, hfst.cons_cons d, hsnd.cons_cons s, fun p hp => ?_, ?_⟩
            · rcases List.mem_cons.mp hp with rfl | hp
              · exact hserve
              · exact hle p hp
            · rw [serve, if_pos hserve, List.length_cons, hlength]
          · obtain ⟨pairs, hfst, hsnd, hle, hlength⟩ := ih (d :: ds)
            refine ⟨pairs, hfst, hsnd.cons s, hle, ?_⟩
            rw [serve, if_neg hserve, hlength]

/-- Values that occur under a function, each as often at most, come from different arguments. -/
theorem exists_arguments {α β : Type*} {f : α → β} {l : List β} {is : List α} (his : is.Nodup)
    (h : l.Subperm (is.map f)) : ∃ js : List α, js.Nodup ∧ js.map f = l := by
  obtain ⟨l', hperm, hsub⟩ := h
  obtain ⟨is', hsub', rfl⟩ := List.sublist_map_iff.mp hsub
  have hcomp : Relation.Comp (fun a b => a = List.map f b) List.Perm l is' := by
    rw [List.eq_map_comp_perm]
    exact hperm.symm
  obtain ⟨js, rfl, hjs⟩ := hcomp
  exact ⟨js, hjs.nodup_iff.mpr (his.sublist hsub'), rfl⟩

/-- **The greedy count is the maximum** over all assignments. -/
theorem serve_isGreatest (demand : Fin n → τ) (supply : Fin m → τ) {ds ss : List τ}
    (hdperm : ds.Perm ((List.finRange n).map demand)) (hds : ds.Pairwise (· ≤ ·))
    (hsperm : ss.Perm ((List.finRange m).map supply)) (hss : ss.Pairwise (· ≤ ·)) :
    IsGreatest {k | ∃ a : Assignment n m, a.satisfied demand supply = k} (serve ds ss) := by
  constructor
  · obtain ⟨pairs, hfst, hsnd, hle, hlength⟩ := serve_pairs ds ss
    obtain ⟨is, his, hi⟩ := exists_arguments (List.nodup_finRange n) (hfst.subperm.trans hdperm.subperm)
    obtain ⟨js, hjs, hj⟩ := exists_arguments (List.nodup_finRange m) (hsnd.subperm.trans hsperm.subperm)
    have hisLength : is.length = pairs.length := by
      rw [← List.length_map demand, hi, List.length_map]
    have hjsLength : js.length = pairs.length := by
      rw [← List.length_map supply, hj, List.length_map]
    have hfsts : (is.zip js).map Prod.fst = is := List.map_fst_zip (by omega)
    have hsnds : (is.zip js).map Prod.snd = js := List.map_snd_zip (by omega)
    refine ⟨⟨is.zip js, hfsts.symm ▸ his, hsnds.symm ▸ hjs⟩, ?_⟩
    show (is.zip js).countP _ = _
    -- the values of the arguments are the served pairs again
    have hvalues : (is.zip js).map (Prod.map demand supply) = pairs := by
      rw [← List.zip_map, hi, hj]
      exact (List.zip_of_prod rfl rfl).symm
    have hall : ∀ p ∈ is.zip js, decide (demand p.1 ≤ supply p.2) = true := fun p hp =>
      decide_eq_true (hle (Prod.map demand supply p) (hvalues ▸ List.mem_map_of_mem hp))
    rw [List.countP_eq_length.mpr hall, List.length_zip, hisLength, hjsLength, Nat.min_self, hlength]
  · rintro k ⟨a, rfl⟩
    rcases serve_bound hds hss with h | ⟨t, ht⟩
    · rw [h, hdperm.length_eq, List.length_map, List.length_finRange]
      exact satisfied_le_demands a
    · unfold below above at ht
      rw [hdperm.countP_eq, hsperm.countP_eq] at ht
      exact (satisfied_le_threshold a t).trans ht

end Matching
