import Mathlib.Data.List.Forall2
import AlgorithmTrainer.Lib.Table

/-!
# `Lib.Correspondence` — tables whose rows correspond

Two tables correspond under a relation if their rows do, one by one and in order. Conditions that agree on
corresponding rows select, count and update corresponding rows, so a simulation between two databases
is a matter of single rows.
-/

namespace Relational

section lists
variable {ρ σ : Type} {R R' : ρ → σ → Prop}

theorem forall₂_mem {l : List ρ} {m : List σ} (h : List.Forall₂ R l m) :
    List.Forall₂ (fun r s => R r s ∧ r ∈ l ∧ s ∈ m) l m := by
  induction h with
  | nil => exact .nil
  | cons hR _ ih =>
      refine .cons ⟨hR, List.mem_cons_self, List.mem_cons_self⟩ (ih.imp fun r s h => ?_)
      exact ⟨h.1, List.mem_cons_of_mem _ h.2.1, List.mem_cons_of_mem _ h.2.2⟩

/-- Every element has a related one. -/
theorem forall₂_exists_left {l : List ρ} {m : List σ} (h : List.Forall₂ R l m) {s : σ} (hs : s ∈ m) :
    ∃ r ∈ l, R r s := by
  obtain ⟨n, hn, rfl⟩ := List.getElem_of_mem hs
  have hn' : n < l.length := h.length_eq ▸ hn
  exact ⟨l.get ⟨n, hn'⟩, List.getElem_mem _, h.get hn' hn⟩

theorem forall₂_exists_right {l : List ρ} {m : List σ} (h : List.Forall₂ R l m) {r : ρ} (hr : r ∈ l) :
    ∃ s ∈ m, R r s := by
  obtain ⟨n, hn, rfl⟩ := List.getElem_of_mem hr
  have hn' : n < m.length := h.length_eq ▸ hn
  exact ⟨m.get ⟨n, hn'⟩, List.getElem_mem _, h.get hn hn'⟩

/-- A list that is in order already. -/
theorem orderBy_eq_self {le : ρ → ρ → Bool} {l : List ρ}
    (h : l.Pairwise fun a b => le a b = true) : orderBy le l = l :=
  h.insertionSort_eq

theorem orderedInsert_eq_append {le : ρ → ρ → Bool} {a : ρ} {l : List ρ}
    (h : ∀ b ∈ l, le a b = false) : l.orderedInsert (fun a b => le a b) a = l ++ [a] := by
  induction l with
  | nil => rfl
  | cons b l ih =>
      rw [List.orderedInsert_cons, h b List.mem_cons_self, if_neg Bool.false_ne_true,
        ih fun c hc => h c (List.mem_cons_of_mem b hc)]
      rfl

/-- A list that is in the opposite order. -/
theorem orderBy_eq_reverse {le : ρ → ρ → Bool} {l : List ρ}
    (h : l.Pairwise fun a b => le a b = false) : orderBy le l = l.reverse := by
  induction l with
  | nil => rfl
  | cons a l ih =>
      obtain ⟨ha, hl⟩ := List.pairwise_cons.mp h
      unfold orderBy at ih ⊢
      rw [List.insertionSort_cons, ih hl, List.reverse_cons]
      exact orderedInsert_eq_append fun b hb => ha b (List.mem_reverse.mp hb)

end lists

namespace Table

variable {ρ σ κ κ' : Type} [Keyed ρ κ] [Keyed σ κ'] {R R' : ρ → σ → Prop}
  {t : Table ρ} {u : Table σ}

/-- The rows of the tables correspond, one by one and in order. -/
def Corresponds (R : ρ → σ → Prop) (t : Table ρ) (u : Table σ) : Prop := List.Forall₂ R t.rows u.rows

theorem Corresponds.empty : Corresponds R (.empty : Table ρ) (.empty : Table σ) := List.Forall₂.nil

theorem Corresponds.mono (h : Corresponds R t u) (hR : ∀ r s, R r s → R' r s) : Corresponds R' t u :=
  h.imp hR

theorem Corresponds.mem (h : Corresponds R t u) :
    Corresponds (fun r s => R r s ∧ r ∈ t ∧ s ∈ u) t u := forall₂_mem h

theorem Corresponds.select {p : ρ → Bool} {q : σ → Bool} (h : Corresponds R t u)
    (hpq : ∀ r s, R r s → p r = q s) : List.Forall₂ R (t.select p) (u.select q) :=
  List.rel_filter (fun r s hR => Bool.eq_iff_iff.mp (hpq r s hR)) h

theorem Corresponds.count {p : ρ → Bool} {q : σ → Bool} (h : Corresponds R t u)
    (hpq : ∀ r s, R r s → p r = q s) : t.count p = u.count q := by
  unfold Table.count
  rw [List.countP_eq_length_filter, List.countP_eq_length_filter]
  exact (h.select hpq).length_eq

/-- Every row has a corresponding one. -/
theorem Corresponds.exists_left (h : Corresponds R t u) {s : σ} (hs : s ∈ u) : ∃ r ∈ t, R r s :=
  forall₂_exists_left h hs

theorem Corresponds.update {p : ρ → Bool} {q : σ → Bool} {f : ρ → ρ} {g : σ → σ}
    {hf : ∀ r, p r = true → Keyed.key (f r) = Keyed.key r}
    {hg : ∀ s, q s = true → Keyed.key (g s) = Keyed.key s} (h : Corresponds R t u)
    (hpq : ∀ r s, R r s → p r = q s) (hfg : ∀ r s, R r s → p r = true → R' (f r) (g s))
    (hkept : ∀ r s, R r s → p r = false → R' r s) :
    Corresponds R' (t.update p f hf) (u.update q g hg) := by
  unfold Corresponds Table.update
  rw [List.forall₂_map_left_iff, List.forall₂_map_right_iff]
  refine List.Forall₂.imp (fun r s hR => ?_) h
  rw [← hpq r s hR]
  cases hp : p r with
  | true => exact hfg r s hR hp
  | false => exact hkept r s hR hp

theorem Corresponds.insert [DecidableEq κ] [DecidableEq κ'] {r : ρ} {s : σ} (h : Corresponds R t u)
    (hr : ∀ x ∈ t, Keyed.key x ≠ Keyed.key r) (hs : ∀ y ∈ u, Keyed.key y ≠ Keyed.key s)
    (hkept : ∀ x y, R x y → R' x y) (hR : R' r s) : Corresponds R' (t.insert r) (u.insert s) := by
  unfold Corresponds
  rw [rows_insert hr, rows_insert hs]
  exact List.rel_append (h.imp hkept) (.cons hR .nil)

end Table
end Relational
