import Mathlib.Data.List.Count
import Mathlib.Data.List.Nodup
import Mathlib.Data.List.Sort

/-!
# `Lib.Table` — tables with a primary key

A `Table` is a list of rows together with the proof that no two of them share a key, so a table with a
duplicate key cannot be built. The operations are the ones statements are made of: `insert` (a no-op on
a key that is taken), `update`, `delete`, `put` (replace the row with this key), `select` and `count`,
and `orderBy` on the rows a query returns. Each comes with its membership lemma and with what it does
to a `count`.
-/

namespace Relational

/-- Rows with a primary key. -/
class Keyed (ρ : Type) (κ : outParam Type) where
  key : ρ → κ

open Keyed (key)

/-- A list of rows in which no key occurs twice. -/
structure Table (ρ : Type) {κ : Type} [Keyed ρ κ] where
  rows : List ρ
  nodup : (rows.map key).Nodup

namespace Table

variable {ρ κ : Type} [Keyed ρ κ]

instance : Membership ρ (Table ρ) := ⟨fun t r => r ∈ t.rows⟩

theorem mem_def {t : Table ρ} {r : ρ} : r ∈ t ↔ r ∈ t.rows := Iff.rfl

theorem ext_rows {t u : Table ρ} (h : t.rows = u.rows) : t = u := by
  cases t; cases u; cases h; rfl

/-- The key determines the row. -/
theorem eq_of_key {t : Table ρ} {r r' : ρ} (hr : r ∈ t) (hr' : r' ∈ t) (hk : key r = key r') :
    r = r' :=
  List.inj_on_of_nodup_map t.nodup hr hr' hk

def empty : Table ρ := ⟨[], List.nodup_nil⟩

@[simp] theorem not_mem_empty (r : ρ) : r ∉ (empty : Table ρ) := List.not_mem_nil

/-! ## Queries -/

/-- The rows a condition selects. -/
def select (t : Table ρ) (p : ρ → Bool) : List ρ := t.rows.filter p

/-- The number of rows a condition selects. -/
def count (t : Table ρ) (p : ρ → Bool) : Nat := t.rows.countP p

theorem mem_select {t : Table ρ} {p : ρ → Bool} {r : ρ} : r ∈ t.select p ↔ r ∈ t ∧ p r = true :=
  List.mem_filter

/-- A condition that fixes the key selects at most one row. -/
theorem select_eq_singleton {t : Table ρ} {p : ρ → Bool} {r : ρ} (hr : r ∈ t) (hp : p r = true)
    (hkey : ∀ x ∈ t, p x = true → key x = key r) : t.select p = [r] := by
  have hall : ∀ x ∈ t.select p, x = r := fun x hx =>
    eq_of_key (mem_select.mp hx).1 hr (hkey x (mem_select.mp hx).1 (mem_select.mp hx).2)
  have hnd : (t.select p).Nodup := (List.Nodup.of_map _ t.nodup).filter _
  have hmem : r ∈ t.select p := mem_select.mpr ⟨hr, hp⟩
  match h : t.select p with
  | [] => rw [h] at hmem; exact absurd hmem List.not_mem_nil
  | [x] => rw [h] at hall; rw [hall x (by simp)]
  | x :: y :: l =>
      rw [h] at hall hnd
      have : x = y := (hall x (by simp)).trans (hall y (by simp)).symm
      simp [this] at hnd

theorem select_eq_nil {t : Table ρ} {p : ρ → Bool} : t.select p = [] ↔ ∀ r ∈ t, p r = false := by
  simp [select, mem_def]

/-- A condition that fixes the key selects no row, or one. -/
theorem select_cases {t : Table ρ} {p : ρ → Bool} {k : κ} (hp : ∀ r, p r = true → key r = k) :
    (∀ r ∈ t, p r = false) ∨ ∃ r ∈ t, p r = true ∧ t.select p = [r] := by
  match h : t.select p with
  | [] => exact Or.inl (select_eq_nil.mp h)
  | r :: _ =>
      have hmem : r ∈ t.select p := h ▸ List.mem_cons_self
      obtain ⟨hr, hpr⟩ := mem_select.mp hmem
      refine Or.inr ⟨r, hr, hpr, ?_⟩
      rw [← h]
      exact select_eq_singleton hr hpr fun x _ hx => (hp x hx).trans (hp r hpr).symm

theorem count_eq_zero {t : Table ρ} {p : ρ → Bool} : t.count p = 0 ↔ ∀ r ∈ t, p r = false := by
  simp [count, List.countP_eq_zero, mem_def]

/-! ## Writes -/

section writes
variable [DecidableEq κ]

/-- Add a row, unless its key is taken. -/
def insert (t : Table ρ) (r : ρ) : Table ρ :=
  if h : key r ∈ t.rows.map key then t
  else ⟨t.rows ++ [r], by
    rw [List.map_append, List.nodup_append]
    refine ⟨t.nodup, by simp, ?_⟩
    intro a ha b hb hab
    rw [List.map_singleton, List.mem_singleton] at hb
    exact h (hb ▸ hab ▸ ha)⟩

theorem mem_insert {t : Table ρ} {r x : ρ} :
    x ∈ t.insert r ↔ x ∈ t ∨ (x = r ∧ key r ∉ t.rows.map key) := by
  unfold insert
  split
  · rename_i h; exact ⟨Or.inl, fun hx => hx.elim id fun hx => absurd h hx.2⟩
  · rename_i h; simp [mem_def, h]

theorem mem_insert_of_mem {t : Table ρ} {r x : ρ} (h : x ∈ t) : x ∈ t.insert r :=
  mem_insert.mpr (Or.inl h)

theorem rows_insert {t : Table ρ} {r : ρ} (h : ∀ x ∈ t, key x ≠ key r) :
    (t.insert r).rows = t.rows ++ [r] := by
  unfold insert
  rw [dif_neg]
  simp only [List.mem_map, not_exists, not_and]
  exact h

/-- Inserting a row under a new key counts it. -/
theorem count_insert {t : Table ρ} {r : ρ} (h : ∀ x ∈ t, key x ≠ key r) (p : ρ → Bool) :
    (t.insert r).count p = t.count p + if p r then 1 else 0 := by
  unfold count
  rw [rows_insert h, List.countP_append, List.countP_singleton]

theorem count_insert_le (t : Table ρ) (r : ρ) (p : ρ → Bool) :
    (t.insert r).count p ≤ t.count p + if p r then 1 else 0 := by
  unfold insert count
  split
  · exact Nat.le_add_right _ _
  · rw [List.countP_append, List.countP_singleton]

end writes

/-- Change the rows a condition selects, keeping their keys. -/
def update (t : Table ρ) (p : ρ → Bool) (f : ρ → ρ)
    (hf : ∀ r, p r = true → key (f r) = key r := by intros; rfl) : Table ρ :=
  ⟨t.rows.map fun r => if p r then f r else r, by
    have : (t.rows.map fun r => if p r then f r else r).map key = t.rows.map key := by
      rw [List.map_map]
      refine List.map_congr_left fun r _ => ?_
      simp only [Function.comp_apply]
      split
      · rename_i h; exact hf r h
      · rfl
    rw [this]; exact t.nodup⟩

/-- Remove the rows a condition selects. -/
def delete (t : Table ρ) (p : ρ → Bool) : Table ρ :=
  ⟨t.rows.filter fun r => !p r, t.nodup.sublist (List.filter_sublist.map key)⟩

theorem mem_update {t : Table ρ} {p : ρ → Bool} {f : ρ → ρ}
    (hf : ∀ r, p r = true → key (f r) = key r) {x : ρ} :
    x ∈ t.update p f hf ↔ ∃ r ∈ t, x = if p r then f r else r := by
  simp only [update, mem_def, List.mem_map]
  exact ⟨fun ⟨r, hr, he⟩ => ⟨r, hr, he.symm⟩, fun ⟨r, hr, he⟩ => ⟨r, hr, he.symm⟩⟩

theorem mem_update_of_mem {t : Table ρ} {p : ρ → Bool} {f : ρ → ρ}
    (hf : ∀ r, p r = true → key (f r) = key r) {r : ρ} (hr : r ∈ t) :
    (if p r then f r else r) ∈ t.update p f hf :=
  (mem_update hf).mpr ⟨r, hr, rfl⟩

theorem mem_update_of_pos {t : Table ρ} {p : ρ → Bool} {f : ρ → ρ} {r : ρ} (hr : r ∈ t)
    (hp : p r = true) (hf : ∀ r, p r = true → key (f r) = key r := by intros; rfl) :
    f r ∈ t.update p f hf :=
  (mem_update hf).mpr ⟨r, hr, (if_pos hp).symm⟩

theorem mem_update_of_neg {t : Table ρ} {p : ρ → Bool} {f : ρ → ρ} {r : ρ} (hr : r ∈ t)
    (hp : p r = false) (hf : ∀ r, p r = true → key (f r) = key r := by intros; rfl) :
    r ∈ t.update p f hf :=
  (mem_update hf).mpr ⟨r, hr, by rw [hp]; rfl⟩

/-- A row that the update neither takes nor makes is there after it if it was there before. -/
theorem mem_update_unselected {t : Table ρ} {p : ρ → Bool} {f : ρ → ρ}
    (hf : ∀ r, p r = true → key (f r) = key r) {x : ρ} (hp : p x = false)
    (hx : ∀ r ∈ t, p r = true → f r ≠ x) : x ∈ t.update p f hf ↔ x ∈ t := by
  refine ⟨fun h => ?_, fun h => mem_update_of_neg h hp hf⟩
  obtain ⟨r, hr, rfl⟩ := (mem_update hf).mp h
  split
  · rename_i hpr
    exact absurd (if_pos hpr).symm (hx r hr hpr)
  · exact hr

theorem mem_delete {t : Table ρ} {p : ρ → Bool} {x : ρ} :
    x ∈ t.delete p ↔ x ∈ t ∧ p x = false := by
  simp [delete, mem_def]

/-- An update that selects no row changes nothing. -/
theorem update_eq_self {t : Table ρ} {p : ρ → Bool} {f : ρ → ρ}
    {hf : ∀ r, p r = true → key (f r) = key r} (h : ∀ r ∈ t, p r = false) :
    t.update p f hf = t := by
  apply ext_rows
  refine (List.map_congr_left fun r hr => ?_).trans (List.map_id _)
  simp [h r hr]

/-- A removal that selects no row changes nothing. -/
theorem delete_eq_self {t : Table ρ} {p : ρ → Bool} (h : ∀ r ∈ t, p r = false) :
    t.delete p = t := by
  apply ext_rows
  refine List.filter_eq_self.mpr fun r hr => ?_
  rw [h r hr]
  rfl

/-- An update does not raise the count of a condition that it makes true of no new row. -/
theorem count_update_le {t : Table ρ} {p q : ρ → Bool} {f : ρ → ρ}
    {hf : ∀ r, p r = true → key (f r) = key r}
    (h : ∀ r ∈ t, p r = true → q (f r) = true → q r = true) :
    (t.update p f hf).count q ≤ t.count q := by
  unfold update count
  rw [List.countP_map]
  refine List.countP_mono_left fun r hr hq => ?_
  simp only [Function.comp_apply] at hq
  split at hq
  · rename_i hp; exact h r hr hp hq
  · exact hq

/-- It lowers the count of a condition that it makes false of a row as well. -/
theorem count_update_lt {t : Table ρ} {p q : ρ → Bool} {f : ρ → ρ}
    {hf : ∀ r, p r = true → key (f r) = key r} {r : ρ} (hr : r ∈ t) (hp : p r = true)
    (hq : q r = true) (hfr : q (f r) = false) (h : ∀ x ∈ t, p x = true → q (f x) = true → q x = true) :
    (t.update p f hf).count q < t.count q := by
  have hkept : ∀ x ∈ t.rows, (q (if p x then f x else x) = true ↔
      (q (if p x then f x else x) && q x) = true) := by
    intro x hx
    rw [Bool.and_eq_true]
    refine ⟨fun hqx => ⟨hqx, ?_⟩, And.left⟩
    split at hqx
    · rename_i hpx; exact h x hx hpx hqx
    · exact hqx
  -- what still meets the condition is a part of what met it, without this row
  unfold update count
  rw [List.countP_map, List.countP_eq_length_filter (p := q)]
  show t.rows.countP (fun x => q (if p x then f x else x)) < _
  rw [List.countP_congr hkept, ← List.countP_filter, List.countP_lt_length_iff]
  refine ⟨r, List.mem_filter.mpr ⟨hr, hq⟩, ?_⟩
  rw [if_pos hp, hfr]

theorem select_update {t : Table ρ} {p q : ρ → Bool} {f : ρ → ρ}
    {hf : ∀ r, p r = true → key (f r) = key r} (hq : ∀ r, q (f r) = q r) :
    (t.update p f hf).select q = (t.select q).map fun r => if p r then f r else r := by
  unfold update select
  rw [List.filter_map]
  congr 1
  refine List.filter_congr fun r _ => ?_
  simp only [Function.comp_apply]
  split
  · exact hq r
  · rfl

theorem count_update_eq {t : Table ρ} {p q : ρ → Bool} {f : ρ → ρ}
    {hf : ∀ r, p r = true → key (f r) = key r} (hq : ∀ r, q (f r) = q r) :
    (t.update p f hf).count q = t.count q := by
  unfold update count
  rw [List.countP_map]
  refine List.countP_congr fun r _ => ?_
  simp only [Function.comp_apply]
  split
  · rw [hq r]
  · rfl

/-- An update keeps the keys. -/
theorem map_key_update {t : Table ρ} {p : ρ → Bool} {f : ρ → ρ}
    {hf : ∀ r, p r = true → key (f r) = key r} :
    (t.update p f hf).rows.map key = t.rows.map key := by
  unfold update
  rw [List.map_map]
  refine List.map_congr_left fun x _ => ?_
  simp only [Function.comp_apply]
  split
  · rename_i h; exact hf x h
  · rfl

/-- An update and an insertion of a row that it leaves alone come out the same in either order. -/
theorem insert_update [DecidableEq κ] {t : Table ρ} {p : ρ → Bool} {f : ρ → ρ}
    {hf : ∀ r, p r = true → key (f r) = key r} {r : ρ} (hp : p r = false) :
    (t.update p f hf).insert r = (t.insert r).update p f hf := by
  have hkeys : (t.update p f hf).rows.map key = t.rows.map key := map_key_update
  apply ext_rows
  by_cases hkey : key r ∈ t.rows.map key
  · unfold insert
    rw [dif_pos hkey, dif_pos (hkeys ▸ hkey)]
  · have hkey' : key r ∉ (t.update p f hf).rows.map key := hkeys ▸ hkey
    unfold insert
    rw [dif_neg hkey, dif_neg hkey']
    simp [update, hp]

section put
variable [DecidableEq κ]

/-- Replace the row that has this row's key. -/
def put (t : Table ρ) (r : ρ) : Table ρ :=
  t.update (fun x => decide (key x = key r)) (fun _ => r)
    (fun _ h => (of_decide_eq_true h).symm)

theorem mem_put {t : Table ρ} {r x : ρ} :
    x ∈ t.put r ↔ (x ∈ t ∧ key x ≠ key r) ∨ (x = r ∧ ∃ y ∈ t, key y = key r) := by
  unfold put
  rw [mem_update]
  constructor
  · rintro ⟨y, hy, rfl⟩
    by_cases hk : key y = key r
    · exact Or.inr ⟨by simp [hk], y, hy, hk⟩
    · exact Or.inl ⟨by simpa [hk] using hy, by simp [hk]⟩
  · rintro (⟨hx, hk⟩ | ⟨rfl, y, hy, hk⟩)
    · exact ⟨x, hx, by simp [hk]⟩
    · exact ⟨y, hy, by simp [hk]⟩

theorem mem_put_self {t : Table ρ} {r y : ρ} (hy : y ∈ t) (hk : key y = key r) : r ∈ t.put r :=
  mem_put.mpr (Or.inr ⟨rfl, y, hy, hk⟩)

theorem put_eq_self {t : Table ρ} {r : ρ} (h : ∀ x ∈ t, key x ≠ key r) : t.put r = t := by
  apply ext_rows
  unfold put update
  refine (List.map_congr_left fun x hx => ?_).trans (List.map_id _)
  simp [h x hx]

/-- Replacing one row raises a count by one at most, and only if the new row is counted. -/
theorem count_put_le (t : Table ρ) (r : ρ) (p : ρ → Bool) :
    (t.put r).count p ≤ t.count p + if p r then 1 else 0 := by
  obtain ⟨rows, hnd⟩ := t
  induction rows with
  | nil => exact Nat.zero_le _
  | cons x xs ih =>
      rw [List.map_cons, List.nodup_cons] at hnd
      by_cases hk : key x = key r
      · have hxs : ∀ y ∈ (⟨xs, hnd.2⟩ : Table ρ), key y ≠ key r := fun y hy he =>
          hnd.1 (List.mem_map.mpr ⟨y, hy, he.trans hk.symm⟩)
        have hput := congrArg (fun u => u.count p) (put_eq_self hxs)
        simp only [put, update, count, List.map_cons, List.countP_cons, hk, decide_true,
          if_true] at hput ⊢
        omega
      · have := ih hnd.2
        simp only [put, update, count, List.map_cons, List.countP_cons, hk, decide_false,
          Bool.false_eq_true, if_false] at this ⊢
        omega

/-- Replacing a row by one that is counted as it was leaves the count. -/
theorem count_put_eq {t : Table ρ} {r : ρ} {p : ρ → Bool}
    (h : ∀ x ∈ t, key x = key r → p x = p r) : (t.put r).count p = t.count p := by
  unfold put update count
  rw [List.countP_map]
  refine List.countP_congr fun x hx => ?_
  simp only [Function.comp_apply]
  by_cases hk : key x = key r
  · simp [hk, h x hx hk]
  · simp [hk]

end put
end Table

/-! ## Ordered results -/

/-- `ORDER BY`: the rows in the order of `le`. -/
def orderBy {ρ : Type} (le : ρ → ρ → Bool) (l : List ρ) : List ρ :=
  l.insertionSort fun a b => le a b

theorem mem_orderBy {ρ : Type} {le : ρ → ρ → Bool} {l : List ρ} {r : ρ} :
    r ∈ orderBy le l ↔ r ∈ l := List.mem_insertionSort _

theorem pairwise_orderBy {ρ : Type} {le : ρ → ρ → Bool}
    (htotal : ∀ a b, le a b = true ∨ le b a = true)
    (htrans : ∀ a b c, le a b = true → le b c = true → le a c = true) (l : List ρ) :
    (orderBy le l).Pairwise fun a b => le a b = true :=
  have : Std.Total fun a b : ρ => le a b = true := ⟨htotal⟩
  have : IsTrans ρ fun a b => le a b = true := ⟨htrans⟩
  List.pairwise_insertionSort _ l

/-- Selecting from ordered rows, or ordering the selected ones, where the order tells the rows apart. -/
theorem filter_orderBy {ρ : Type} {le : ρ → ρ → Bool}
    (htotal : ∀ a b, le a b = true ∨ le b a = true)
    (htrans : ∀ a b c, le a b = true → le b c = true → le a c = true) {l : List ρ}
    (hanti : ∀ a ∈ l, ∀ b ∈ l, le a b = true → le b a = true → a = b) (p : ρ → Bool) :
    (orderBy le l).filter p = orderBy le (l.filter p) := by
  have hperm : ((orderBy le l).filter p).Perm (orderBy le (l.filter p)) :=
    ((List.perm_insertionSort _ l).filter p).trans (List.perm_insertionSort _ (l.filter p)).symm
  refine List.Perm.eq_of_pairwise (fun a b ha hb => ?_) ((pairwise_orderBy htotal htrans l).filter p)
    (pairwise_orderBy htotal htrans (l.filter p)) hperm
  have ha : a ∈ l := mem_orderBy.mp (List.mem_filter.mp ha).1
  have hb : b ∈ l := (List.mem_filter.mp (mem_orderBy.mp hb)).1
  exact hanti a ha b hb

/-- The first row of an ordered result is a least one. -/
theorem head?_orderBy {ρ : Type} {le : ρ → ρ → Bool}
    (htotal : ∀ a b, le a b = true ∨ le b a = true)
    (htrans : ∀ a b c, le a b = true → le b c = true → le a c = true)
    {l : List ρ} {r : ρ} (h : (orderBy le l).head? = some r) : r ∈ l ∧ ∀ x ∈ l, le r x = true := by
  have hsorted := pairwise_orderBy htotal htrans l
  match hs : orderBy le l with
  | [] => simp [hs] at h
  | a :: rest =>
      rw [hs] at h hsorted
      cases Option.some.inj h
      have hmem : ∀ x, x ∈ l ↔ x ∈ r :: rest := fun x => by rw [← hs, mem_orderBy]
      refine ⟨(hmem r).mpr (by simp), fun x hx => ?_⟩
      rcases List.mem_cons.mp ((hmem x).mp hx) with rfl | hx
      · exact (htotal _ _).elim id id
      · exact (List.pairwise_cons.mp hsorted).1 x hx

theorem head?_orderBy_eq_none {ρ : Type} {le : ρ → ρ → Bool} {l : List ρ} :
    (orderBy le l).head? = none ↔ l = [] := by
  rw [List.head?_eq_none_iff, ← List.length_eq_zero_iff, orderBy, List.length_insertionSort,
    List.length_eq_zero_iff]

end Relational
