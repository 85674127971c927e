import Mathlib.Data.List.DropRight
import AlgorithmTrainer.Executor.Record

/-!
# `Judge.Normalization` — `normalize_output`

The judge compares two outputs after their line endings are rewritten and their trailing whitespace is cut
off. `Alike` says which outputs that identifies, without a scan: a common text, each followed by whitespace of
its own, once the line endings are the same. `normalizeOutput_spec` proves the comparison exact.
-/

namespace AlgorithmTrainer

def carriageReturn : UInt8 := 13
def lineFeed : UInt8 := 10

/-- `trailing_whitespace`: a space, a tab, a newline, a vertical tab or a form feed. -/
def trailingWhitespace : Bytes := [32, 9, 10, 11, 12]

/-- The character is cut off at the end. -/
def isTrailing (c : UInt8) : Bool := trailingWhitespace.contains c

/-- The first loop of `normalize_output`, from an index on. -/
def rewriteNewlines : Bytes → Bytes
  | [] => []
  | [c] => [if c ≠ carriageReturn then c else lineFeed]
  | c :: d :: rest =>
      if c ≠ carriageReturn then c :: rewriteNewlines (d :: rest)
      else lineFeed :: (if d = lineFeed then rewriteNewlines rest else rewriteNewlines (d :: rest))

/-- `normalize_output`: the line endings, and then what `pop_back` takes away. -/
def normalizeOutput (output : Bytes) : Bytes := (rewriteNewlines output).rdropWhile isTrailing

/-! ## What the comparison is about -/

/-- Every CRLF replaced by LF. -/
def replaceCrlf : Bytes → Bytes
  | [] => []
  | [c] => [c]
  | c :: d :: rest =>
      if c = carriageReturn ∧ d = lineFeed then lineFeed :: replaceCrlf rest
      else c :: replaceCrlf (d :: rest)

/-- Every CRLF and every remaining CR replaced by LF. -/
def unifyNewlines (output : Bytes) : Bytes :=
  (replaceCrlf output).map fun c => if c = carriageReturn then lineFeed else c

/-- One text, followed by trailing whitespace, gives both. -/
def Alike (x y : Bytes) : Prop :=
  ∃ text u v, (∀ c ∈ u, isTrailing c = true) ∧ (∀ c ∈ v, isTrailing c = true) ∧
    unifyNewlines x = text ++ u ∧ unifyNewlines y = text ++ v

/-- `output` spells the newlines of the text, each in a way of its own. A newline that is spelled CR is not
    followed by one that is spelled LF: the two would be read as one. -/
inductive Spelled : Bytes → Bytes → Prop where
  | nil : Spelled [] []
  | char {text output : Bytes} {c : UInt8} (hlf : c ≠ lineFeed) (hcr : c ≠ carriageReturn)
      (h : Spelled text output) : Spelled (c :: text) (c :: output)
  | lf {text output : Bytes} (h : Spelled text output) :
      Spelled (lineFeed :: text) (lineFeed :: output)
  | crlf {text output : Bytes} (h : Spelled text output) :
      Spelled (lineFeed :: text) (carriageReturn :: lineFeed :: output)
  | cr {text output : Bytes} (h : Spelled text output) (hnext : output.head? ≠ some lineFeed) :
      Spelled (lineFeed :: text) (carriageReturn :: output)

/-! ## The rewritten line endings -/

theorem lineFeed_ne : lineFeed ≠ carriageReturn := by decide

theorem isTrailing_lineFeed : isTrailing lineFeed = true := by decide

/-- A character that is no CR is kept. -/
theorem rewriteNewlines_cons {c : UInt8} (hc : c ≠ carriageReturn) (rest : Bytes) :
    rewriteNewlines (c :: rest) = c :: rewriteNewlines rest := by
  cases rest with
  | nil => simp [rewriteNewlines, hc]
  | cons d rest => simp [rewriteNewlines, hc]

theorem rewriteNewlines_crlf (rest : Bytes) :
    rewriteNewlines (carriageReturn :: lineFeed :: rest) = lineFeed :: rewriteNewlines rest := by
  simp [rewriteNewlines]

/-- A CR by itself is a newline. -/
theorem rewriteNewlines_cr {rest : Bytes} (hnext : rest.head? ≠ some lineFeed) :
    rewriteNewlines (carriageReturn :: rest) = lineFeed :: rewriteNewlines rest := by
  cases rest with
  | nil => simp [rewriteNewlines]
  | cons d rest =>
      have hd : d ≠ lineFeed := fun h => hnext (congrArg some h)
      simp [rewriteNewlines, hd]

/-- A text begins in one of three ways. -/
theorem newline_cases (s : Bytes) :
    s = [] ∨ (∃ c rest, c ≠ carriageReturn ∧ s = c :: rest) ∨
      (∃ rest, s = carriageReturn :: lineFeed :: rest) ∨
      ∃ rest, rest.head? ≠ some lineFeed ∧ s = carriageReturn :: rest := by
  cases s with
  | nil => exact Or.inl rfl
  | cons c rest =>
      by_cases hc : c = carriageReturn
      · subst hc
        by_cases hnext : rest.head? = some lineFeed
        · obtain ⟨rest', rfl⟩ := List.head?_eq_some_iff.mp hnext
          exact Or.inr (Or.inr (Or.inl ⟨rest', rfl⟩))
        · exact Or.inr (Or.inr (Or.inr ⟨rest, hnext, rfl⟩))
      · exact Or.inr (Or.inl ⟨c, rest, hc, rfl⟩)

/-- **Induction along the scan**, which consumes one character or two. -/
theorem scan_induction {motive : Bytes → Prop} (nil : motive [])
    (char : ∀ c rest, c ≠ carriageReturn → motive rest → motive (c :: rest))
    (crlf : ∀ rest, motive rest → motive (carriageReturn :: lineFeed :: rest))
    (cr : ∀ rest, rest.head? ≠ some lineFeed → motive rest → motive (carriageReturn :: rest))
    (s : Bytes) : motive s := by
  induction hn : s.length using Nat.strong_induction_on generalizing s with
  | _ n ih =>
      subst hn
      rcases newline_cases s with rfl | ⟨c, rest, hc, rfl⟩ | ⟨rest, rfl⟩ | ⟨rest, hnext, rfl⟩
      · exact nil
      · exact char c rest hc (ih _ (Nat.lt_succ_self _) rest rfl)
      · exact crlf rest (ih _ (Nat.lt_succ_of_lt (Nat.lt_succ_self _)) rest rfl)
      · exact cr rest hnext (ih _ (Nat.lt_succ_self _) rest rfl)

theorem replaceCrlf_cons {c : UInt8} {rest : Bytes}
    (h : c ≠ carriageReturn ∨ rest.head? ≠ some lineFeed) :
    replaceCrlf (c :: rest) = c :: replaceCrlf rest := by
  cases rest with
  | nil => rfl
  | cons d rest =>
      have hnot : ¬ (c = carriageReturn ∧ d = lineFeed) := by
        rintro ⟨hc, hd⟩
        exact h.elim (· hc) (· (congrArg some hd))
      exact if_neg hnot

theorem replaceCrlf_crlf (rest : Bytes) :
    replaceCrlf (carriageReturn :: lineFeed :: rest) = lineFeed :: replaceCrlf rest := by
  simp [replaceCrlf]

/-- **The scan computes the two replacements in one pass.** -/
theorem rewriteNewlines_eq (s : Bytes) : rewriteNewlines s = unifyNewlines s := by
  unfold unifyNewlines
  induction s using scan_induction with
  | nil => rfl
  | char c rest hc ih =>
      rw [rewriteNewlines_cons hc, ih, replaceCrlf_cons (Or.inl hc), List.map_cons, if_neg hc]
  | crlf rest ih =>
      rw [rewriteNewlines_crlf, ih, replaceCrlf_crlf, List.map_cons, if_neg lineFeed_ne]
  | cr rest hnext ih =>
      rw [rewriteNewlines_cr hnext, ih, replaceCrlf_cons (Or.inr hnext), List.map_cons, if_pos rfl]

theorem not_mem_rewriteNewlines (s : Bytes) : carriageReturn ∉ rewriteNewlines s := by
  rw [rewriteNewlines_eq, unifyNewlines]
  intro hmem
  obtain ⟨c, -, hc⟩ := List.mem_map.mp hmem
  split at hc
  · exact lineFeed_ne hc
  · rename_i hne
    exact hne hc

/-- Where there is no CR, nothing is rewritten. -/
theorem rewriteNewlines_of_not_mem {s : Bytes} (h : carriageReturn ∉ s) : rewriteNewlines s = s := by
  induction s with
  | nil => rfl
  | cons c rest ih =>
      have hc : c ≠ carriageReturn := fun he => h (he ▸ List.mem_cons_self)
      rw [rewriteNewlines_cons hc, ih fun hmem => h (List.mem_cons_of_mem c hmem)]

/-- Every spelling of a text is rewritten to the text. -/
theorem rewriteNewlines_spelled {text output : Bytes} (h : Spelled text output) :
    rewriteNewlines output = text := by
  induction h with
  | nil => rfl
  | char hlf hcr _ ih => rw [rewriteNewlines_cons hcr, ih]
  | lf _ ih => rw [rewriteNewlines_cons lineFeed_ne, ih]
  | crlf _ ih => rw [rewriteNewlines_crlf, ih]
  | cr _ hnext ih => rw [rewriteNewlines_cr hnext, ih]

/-- Whitespace with newlines of any spelling is rewritten to trailing whitespace. -/
theorem isTrailing_rewritten {w : Bytes}
    (h : ∀ c ∈ w, isTrailing c = true ∨ c = carriageReturn) :
    ∀ c ∈ rewriteNewlines w, isTrailing c = true := by
  induction w using scan_induction with
  | nil => exact fun c hc => absurd hc List.not_mem_nil
  | char c rest hc ih =>
      obtain ⟨hhead, htail⟩ := List.forall_mem_cons.mp h
      rw [rewriteNewlines_cons hc]
      exact List.forall_mem_cons.mpr ⟨hhead.resolve_right hc, ih htail⟩
  | crlf rest ih =>
      rw [rewriteNewlines_crlf]
      have htail := (List.forall_mem_cons.mp (List.forall_mem_cons.mp h).2).2
      exact List.forall_mem_cons.mpr ⟨isTrailing_lineFeed, ih htail⟩
  | cr rest hnext ih =>
      rw [rewriteNewlines_cr hnext]
      exact List.forall_mem_cons.mpr ⟨isTrailing_lineFeed, ih (List.forall_mem_cons.mp h).2⟩

/-- Whitespace at the end is rewritten to trailing whitespace at the end, also where its first newline
    completes a CR before it. -/
theorem rewriteNewlines_append (s : Bytes) {w : Bytes}
    (h : ∀ c ∈ w, isTrailing c = true ∨ c = carriageReturn) :
    ∃ v, (∀ c ∈ v, isTrailing c = true) ∧ rewriteNewlines (s ++ w) = rewriteNewlines s ++ v := by
  induction s using scan_induction with
  | nil => exact ⟨rewriteNewlines w, isTrailing_rewritten h, rfl⟩
  | char c rest hc ih =>
      obtain ⟨v, hv, hrest⟩ := ih
      refine ⟨v, hv, ?_⟩
      rw [List.cons_append, rewriteNewlines_cons hc, hrest, rewriteNewlines_cons hc]
      rfl
  | crlf rest ih =>
      obtain ⟨v, hv, hrest⟩ := ih
      refine ⟨v, hv, ?_⟩
      rw [List.cons_append, List.cons_append, rewriteNewlines_crlf, hrest, rewriteNewlines_crlf]
      rfl
  | cr rest hnext ih =>
      obtain ⟨v, hv, hrest⟩ := ih
      by_cases hcr : (rest ++ w).head? = some lineFeed
      · -- The CR is the last character, and the LF that follows it is the first of the whitespace.
        cases rest with
        | nil =>
            obtain ⟨w', rfl⟩ := List.head?_eq_some_iff.mp hcr
            have hw' := (List.forall_mem_cons.mp h).2
            exact ⟨rewriteNewlines w', isTrailing_rewritten hw', rewriteNewlines_crlf w'⟩
        | cons d rest => exact absurd hcr hnext
      · refine ⟨v, hv, ?_⟩
        rw [List.cons_append, rewriteNewlines_cr hcr, hrest, rewriteNewlines_cr hnext]
        rfl

/-! ## The trailing whitespace -/

section trailing
variable {α : Type} {p : α → Bool}

theorem rdropWhile_append {u : List α} (text : List α) (hu : ∀ c ∈ u, p c = true) :
    (text ++ u).rdropWhile p = text.rdropWhile p := by
  induction u using List.reverseRecOn with
  | nil => rw [List.append_nil]
  | append_singleton u c ih =>
      have hc := hu c (List.mem_append_right u List.mem_cons_self)
      rw [← List.append_assoc, List.rdropWhile_concat_pos p _ c hc]
      exact ih fun x hx => hu x (List.mem_append_left _ hx)

/-- Two texts agree once their ends are cut off exactly if they are one text with two ends. -/
theorem rdropWhile_eq_iff {x y : List α} :
    x.rdropWhile p = y.rdropWhile p ↔
      ∃ text u v, (∀ c ∈ u, p c = true) ∧ (∀ c ∈ v, p c = true) ∧ x = text ++ u ∧ y = text ++ v := by
  constructor
  · intro h
    refine ⟨x.rdropWhile p, x.rtakeWhile p, y.rtakeWhile p, fun c => List.mem_rtakeWhile_imp,
      fun c => List.mem_rtakeWhile_imp, ?_, ?_⟩
    · exact (List.rdropWhile_append_rtakeWhile ..).symm
    · rw [h]
      exact (List.rdropWhile_append_rtakeWhile ..).symm
  · rintro ⟨text, u, v, hu, hv, rfl, rfl⟩
    rw [rdropWhile_append text hu, rdropWhile_append text hv]

end trailing

/-! ## The comparison -/

theorem normalizeOutput_eq_iff {x y : Bytes} :
    normalizeOutput x = normalizeOutput y ↔ Alike x y := by
  unfold normalizeOutput Alike
  rw [rewriteNewlines_eq, rewriteNewlines_eq]
  exact rdropWhile_eq_iff

theorem not_mem_normalizeOutput (s : Bytes) : carriageReturn ∉ normalizeOutput s := by
  intro h
  exact not_mem_rewriteNewlines s ((List.rdropWhile_prefix isTrailing _).subset h)

theorem isTrailing_getLast (s : Bytes) {c : UInt8} (h : (normalizeOutput s).getLast? = some c) :
    isTrailing c = false := by
  have hne : normalizeOutput s ≠ [] := fun hnil => by simp [hnil] at h
  rw [List.getLast?_eq_some_getLast hne, Option.some.injEq] at h
  subst h
  exact Bool.eq_false_iff.mpr (List.rdropWhile_last_not isTrailing (rewriteNewlines s) hne)

theorem normalizeOutput_idempotent (s : Bytes) :
    normalizeOutput (normalizeOutput s) = normalizeOutput s := by
  have hcr := rewriteNewlines_of_not_mem (not_mem_normalizeOutput s)
  calc normalizeOutput (normalizeOutput s)
      = (normalizeOutput s).rdropWhile isTrailing := congrArg (List.rdropWhile isTrailing) hcr
    _ = normalizeOutput s := List.rdropWhile_idempotent isTrailing (rewriteNewlines s)

/-- A text, in any spelling and with any whitespace appended, is normalized as the text is. -/
theorem normalizeOutput_spelled {text output w : Bytes} (h : Spelled text output)
    (hw : ∀ c ∈ w, isTrailing c = true ∨ c = carriageReturn) :
    normalizeOutput (output ++ w) = normalizeOutput text := by
  obtain ⟨v, hv, hrewritten⟩ := rewriteNewlines_append output hw
  have htext : rewriteNewlines text = text := by
    have hspelled := rewriteNewlines_spelled h
    exact rewriteNewlines_of_not_mem (hspelled ▸ not_mem_rewriteNewlines output)
  unfold normalizeOutput
  rw [hrewritten, rewriteNewlines_spelled h, htext, rdropWhile_append text hv]

/-- **What the comparison of two outputs ignores.** Line endings and trailing whitespace, and nothing
    else: two outputs are identified exactly if they are one text, up to these. -/
theorem normalizeOutput_spec (s : Bytes) :
    normalizeOutput (normalizeOutput s) = normalizeOutput s ∧
      carriageReturn ∉ normalizeOutput s ∧
      (∀ c ∈ (normalizeOutput s).getLast?, isTrailing c = false) ∧
      (∀ output w, Spelled s output → (∀ c ∈ w, isTrailing c = true ∨ c = carriageReturn) →
        normalizeOutput (output ++ w) = normalizeOutput s) ∧
      ∀ s', normalizeOutput s = normalizeOutput s' ↔ Alike s s' :=
  ⟨normalizeOutput_idempotent s, not_mem_normalizeOutput s, fun _ h => isTrailing_getLast s h,
    fun _ _ h hw => normalizeOutput_spelled h hw, fun _ => normalizeOutput_eq_iff⟩

/-- A newline of each spelling, and one that whitespace completes. -/
example : normalizeOutput [53, 13, 10, 54, 13, 55, 13, 10, 9] = [53, 10, 54, 10, 55] := by decide

end AlgorithmTrainer
