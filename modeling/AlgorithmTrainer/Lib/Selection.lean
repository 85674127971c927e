import AlgorithmTrainer.Lib.Correspondence

/-!
# `Lib.Selection` — selections that are put together clause by clause

A query whose conditions are optional is built by appending a clause and a parameter for each condition that
is given; a clause names its parameter by a number. `Built` carries that the numbers are `1, 2, …` in
order, so each clause is compared with its own parameter whichever conditions are given.

The second part is about results that are ordered and cut to their first rows: when two conditions select
the same result, and that the result does not depend on how the rows are stored or seen.
-/

namespace Relational

/-! ## Clauses and parameters -/

/-- The clauses of a query with the numbers of their placeholders, and the parameters. -/
structure Built (κ ν : Type) where
  clauses : List (κ × Nat)
  parameters : List ν
  numbered : clauses.map Prod.snd = List.range' 1 parameters.length

namespace Built

variable {κ ν ρ : Type}

def empty : Built κ ν := ⟨[], [], rfl⟩

/-- Append a clause whose parameter is given, with the number of its parameter. -/
def add (q : Built κ ν) (clause : κ) : Option ν → Built κ ν
  | none => q
  | some value =>
      { clauses := q.clauses ++ [(clause, q.parameters.length + 1)]
        parameters := q.parameters ++ [value]
        numbered := by
          rw [List.map_append, q.numbered, List.length_append, List.length_singleton,
            List.range'_1_concat]
          simp [Nat.add_comm] }

theorem length_clauses (q : Built κ ν) : q.clauses.length = q.parameters.length := by
  have hlength := congrArg List.length q.numbered
  rwa [List.length_map, List.length_range'] at hlength

/-- Append a clause whose placeholder has no number of its own: it is counted among the placeholders. -/
def addPositional (q : Built κ ν) (clause : κ) : Option ν → Built κ ν
  | none => q
  | some value =>
      { clauses := q.clauses ++ [(clause, q.clauses.length + 1)]
        parameters := q.parameters ++ [value]
        numbered := by
          rw [q.length_clauses]
          exact (q.add clause (some value)).numbered }

/-- Counting the placeholders is numbering the parameters. -/
theorem addPositional_eq (q : Built κ ν) (clause : κ) (value : Option ν) :
    q.addPositional clause value = q.add clause value := by
  cases value with
  | none => rfl
  | some value => simp only [addPositional, add, q.length_clauses]

/-- Both conditions, if both have a meaning. -/
def both (p q : Option (ρ → Bool)) : Option (ρ → Bool) :=
  match p, q with
  | some p, some q => some fun r => p r && q r
  | _, _ => none

/-- The condition of a query: every clause holds, each of the parameter of its number. It has no meaning if a
    clause has none. -/
def condition (meaning : κ → ν → Option (ρ → Bool)) (q : Built κ ν) : Option (ρ → Bool) :=
  (q.clauses.mapM fun c => (q.parameters[c.2 - 1]?).bind (meaning c.1)).map fun ps r => ps.all (· r)

/-- What an optional clause means; one that is not given excludes nothing. -/
def optional (meaning : κ → ν → Option (ρ → Bool)) (clause : κ) : Option ν → Option (ρ → Bool)
  | none => some fun _ => true
  | some value => meaning clause value

theorem condition_empty (meaning : κ → ν → Option (ρ → Bool)) :
    (empty : Built κ ν).condition meaning = some fun _ => true := rfl

theorem mapM_congr {α β : Type} {f g : α → Option β} {l : List α} (h : ∀ a ∈ l, f a = g a) :
    l.mapM f = l.mapM g := by
  induction l with
  | nil => rfl
  | cons a l ih =>
      rw [List.mapM_cons, List.mapM_cons, h a List.mem_cons_self,
        ih fun b hb => h b (List.mem_cons_of_mem a hb)]

/-- **What a clause adds**: its meaning with its own parameter. The clauses before it keep theirs. -/
theorem condition_add (meaning : κ → ν → Option (ρ → Bool)) (q : Built κ ν) (clause : κ)
    (value : Option ν) :
    (q.add clause value).condition meaning
      = both (q.condition meaning) (optional meaning clause value) := by
  cases value with
  | none =>
      show q.condition meaning = both (q.condition meaning) (some fun _ => true)
      cases q.condition meaning with
      | none => rfl
      | some p => simp [both]
  | some v =>
      let reads (parameters : List ν) (c : κ × Nat) : Option (ρ → Bool) :=
        (parameters[c.2 - 1]?).bind (meaning c.1)
      have hkept : ∀ c ∈ q.clauses, reads (q.parameters ++ [v]) c = reads q.parameters c := by
        intro c hc
        have hnumber : c.2 ∈ List.range' 1 q.parameters.length :=
          q.numbered ▸ List.mem_map_of_mem hc
        have hbound := List.mem_range'_1.mp hnumber
        show ((q.parameters ++ [v])[c.2 - 1]?).bind _ = _
        rw [List.getElem?_append_left (by omega)]
      have hnew : reads (q.parameters ++ [v]) (clause, q.parameters.length + 1) = meaning clause v := by
        show ((q.parameters ++ [v])[q.parameters.length + 1 - 1]?).bind _ = _
        simp
      show ((q.clauses ++ [(clause, q.parameters.length + 1)]).mapM
          (reads (q.parameters ++ [v]))).map _ = both ((q.clauses.mapM (reads q.parameters)).map _)
          (meaning clause v)
      rw [List.mapM_append, mapM_congr hkept, List.mapM_cons, hnew]
      cases q.clauses.mapM (reads q.parameters) with
      | none => rfl
      | some ps =>
          cases meaning clause v with
          | none => rfl
          | some p => simp [both]

end Built

/-! ## Ordered results that are cut -/

variable {ρ σ : Type}

/-- **When two conditions select the same first rows**: of the first rows that either selects, none is
selected by one of them only. -/
theorem take_filter_eq_iff {l : List ρ} (h : l.Nodup) (p q : ρ → Bool) (n : Nat) :
    (l.filter p).take n = (l.filter q).take n ↔
      ∀ r ∈ (l.filter fun r => p r || q r).take n, p r = q r := by
  induction l generalizing n with
  | nil => simp
  | cons a l ih =>
      obtain ⟨ha, hl⟩ := List.nodup_cons.mp h
      cases n with
      | zero => simp
      | succ n =>
          have hfresh : ∀ (s : ρ → Bool), a ∉ (l.filter s).take (n + 1) := fun s hmem =>
            ha (List.mem_filter.mp (List.mem_of_mem_take hmem)).1
          cases hp : p a <;> cases hq : q a
          · -- neither selects the row
            rw [List.filter_cons_of_neg (by simp [hp]), List.filter_cons_of_neg (by simp [hq]),
              List.filter_cons_of_neg (by simp [hp, hq])]
            exact ih hl (n + 1)
          · -- one of them does, and its result alone begins with the row
            rw [List.filter_cons_of_neg (by simp [hp]), List.filter_cons_of_pos hq,
              List.filter_cons_of_pos (by simp [hp, hq]), List.take_succ_cons, List.take_succ_cons]
            constructor
            · intro heq
              exact absurd (heq ▸ List.mem_cons_self) (hfresh p)
            · intro hall
              have hsame := hall a List.mem_cons_self
              rw [hp, hq] at hsame
              cases hsame
          · rw [List.filter_cons_of_pos hp, List.filter_cons_of_neg (by simp [hq]),
              List.filter_cons_of_pos (by simp [hp, hq]), List.take_succ_cons, List.take_succ_cons]
            constructor
            · intro heq
              exact absurd (heq ▸ List.mem_cons_self) (hfresh q)
            · intro hall
              have hsame := hall a List.mem_cons_self
              rw [hp, hq] at hsame
              cases hsame
          · -- both do
            rw [List.filter_cons_of_pos hp, List.filter_cons_of_pos hq,
              List.filter_cons_of_pos (by simp [hp, hq]), List.take_succ_cons, List.take_succ_cons,
              List.take_succ_cons, List.cons_inj_right, ih hl n, List.forall_mem_cons]
            rw [hp, hq]
            simp

/-- The rows descend by a value of theirs. -/
def Descends {κ : Type} [LE κ] (le : ρ → ρ → Bool) (value : ρ → κ) : Prop :=
  ∀ a b, le a b = true ↔ value b ≤ value a

section descends
variable {κ : Type} [LinearOrder κ] {le : ρ → ρ → Bool} {value : ρ → κ}

theorem Descends.total (h : Descends le value) (a b : ρ) : le a b = true ∨ le b a = true :=
  (le_total (value b) (value a)).imp (h a b).mpr (h b a).mpr

theorem Descends.trans (h : Descends le value) (a b c : ρ) (hab : le a b = true) (hbc : le b c = true) :
    le a c = true :=
  (h a c).mpr (le_trans ((h b c).mp hbc) ((h a b).mp hab))

theorem Descends.antisymm (h : Descends le value) {l : List ρ}
    (hvalue : ∀ a ∈ l, ∀ b ∈ l, value a = value b → a = b) :
    ∀ a ∈ l, ∀ b ∈ l, le a b = true → le b a = true → a = b := by
  intro a ha b hb hab hba
  exact hvalue a ha b hb (le_antisymm ((h b a).mp hba) ((h a b).mp hab))

/-- The same for rows that are ordered first, where their values tell them apart. -/
theorem take_orderBy_filter_iff (h : Descends le value) {l : List ρ} (hl : l.Nodup)
    (hvalue : ∀ a ∈ l, ∀ b ∈ l, value a = value b → a = b) (p q : ρ → Bool) (n : Nat) :
    (orderBy le (l.filter p)).take n = (orderBy le (l.filter q)).take n ↔
      ∀ r ∈ (orderBy le (l.filter fun r => p r || q r)).take n, p r = q r := by
  have hordered : (orderBy le l).Nodup := (List.perm_insertionSort _ l).nodup_iff.mpr hl
  have hfilter := filter_orderBy h.total h.trans (h.antisymm hvalue)
  rw [← hfilter, ← hfilter, ← hfilter]
  exact take_filter_eq_iff hordered p q n

/-- How the rows are stored does not matter to their order. -/
theorem orderBy_perm (h : Descends le value) {l l' : List ρ}
    (hvalue : ∀ a ∈ l, ∀ b ∈ l, value a = value b → a = b) (hperm : l.Perm l') :
    orderBy le l = orderBy le l' := by
  have hordered : (orderBy le l).Perm (orderBy le l') :=
    ((List.perm_insertionSort _ l).trans hperm).trans (List.perm_insertionSort _ l').symm
  refine List.Perm.eq_of_pairwise (fun a b ha hb => ?_) (pairwise_orderBy h.total h.trans l)
    (pairwise_orderBy h.total h.trans l') hordered
  exact h.antisymm hvalue a (mem_orderBy.mp ha) b (hperm.mem_iff.mpr (mem_orderBy.mp hb))

end descends

/-- Ordering rows, or what they are seen as. -/
theorem map_orderBy {le : ρ → ρ → Bool} {le' : σ → σ → Bool} {f : ρ → σ} {l : List ρ}
    (h : ∀ a ∈ l, ∀ b ∈ l, le a b = le' (f a) (f b)) : (orderBy le l).map f = orderBy le' (l.map f) :=
  List.map_insertionSort _ _ f l fun a ha b hb => by rw [h a ha b hb]

end Relational
