import Mathlib.Computability.RegularExpressions
import AlgorithmTrainer.Lib.Separated
import AlgorithmTrainer.Problem.Record

/-!
# `Problem.Slug` — the ids the editor accepts and the ids the server accepts

The slug input of the administrators' form carries a `pattern` and a `maxLength`; the server checks the id
of a written problem by `valid_problem_slug`. The pattern is an expression over `RegularExpression`, and its
words are the ones whose pieces between hyphens are all nonempty. The check of the server looks at the
first and the last character only, so the two agree on a text unless a doubled hyphen is its only fault.
-/

namespace AlgorithmTrainer

open RegularExpression Computability

/-! ## The editor's pattern -/

/-- The characters of `[a-z0-9]`. -/
def slugLetters : List Char := "abcdefghijklmnopqrstuvwxyz0123456789".toList

/-- One of the listed characters. -/
def oneOf (cs : List Char) : RegularExpression Char := (cs.map char).foldr (· + ·) 0

/-- `P+` of the browser's regular expressions. -/
def oneOrMore (P : RegularExpression Char) : RegularExpression Char := P * star P

/-- `pattern="[a-z0-9]+(?:-[a-z0-9]+)*"` -/
def slugPattern : RegularExpression Char :=
  oneOrMore (oneOf slugLetters) * star (char '-' * oneOrMore (oneOf slugLetters))

/-- What the slug input of the editor accepts: its `maxLength` and its `pattern`. -/
def EditorAccepts (slug : String) : Prop := slug.length ≤ 80 ∧ slug.toList ∈ slugPattern.matches'

theorem mem_oneOf {cs : List Char} {w : List Char} :
    w ∈ (oneOf cs).matches' ↔ ∃ c ∈ cs, w = [c] := by
  induction cs with
  | nil => simp [oneOf, Language.notMem_zero]
  | cons c cs ih =>
      have hstep : (oneOf (c :: cs)).matches' = {[c]} + (oneOf cs).matches' := by
        simp only [oneOf, List.map_cons, List.foldr_cons, matches'_add, matches'_char]
      rw [hstep, Language.mem_add, ih]
      constructor
      · rintro (h | ⟨d, hd, rfl⟩)
        · exact ⟨c, List.mem_cons_self, h⟩
        · exact ⟨d, List.mem_cons_of_mem c hd, rfl⟩
      · rintro ⟨d, hd, rfl⟩
        rcases List.mem_cons.mp hd with rfl | hd
        · exact .inl rfl
        · exact .inr ⟨d, hd, rfl⟩

theorem mem_star_oneOf {cs : List Char} {w : List Char} :
    w ∈ ((oneOf cs).matches')∗ ↔ ∀ c ∈ w, c ∈ cs := by
  constructor
  · intro h c hc
    obtain ⟨pieces, rfl, hpieces⟩ := Language.mem_kstar.mp h
    obtain ⟨p, hp, hcp⟩ := List.mem_flatten.mp hc
    obtain ⟨d, hd, rfl⟩ := mem_oneOf.mp (hpieces p hp)
    rwa [List.mem_singleton.mp hcp]
  · intro h
    refine Language.mem_kstar.mpr ⟨w.map fun c => [c], List.flatMap_singleton' w |>.symm, fun p hp => ?_⟩
    obtain ⟨c, hc, rfl⟩ := List.mem_map.mp hp
    exact mem_oneOf.mpr ⟨c, h c hc, rfl⟩

theorem mem_oneOrMore {cs : List Char} {w : List Char} :
    w ∈ (oneOrMore (oneOf cs)).matches' ↔ w ≠ [] ∧ ∀ c ∈ w, c ∈ cs := by
  unfold oneOrMore
  rw [matches'_mul, matches'_star, Language.mem_mul]
  constructor
  · rintro ⟨a, ha, b, hb, rfl⟩
    obtain ⟨c, hc, rfl⟩ := mem_oneOf.mp ha
    refine ⟨List.cons_ne_nil c b, fun d hd => ?_⟩
    rcases List.mem_cons.mp hd with rfl | hd
    · exact hc
    · exact mem_star_oneOf.mp hb d hd
  · rintro ⟨hne, hall⟩
    cases w with
    | nil => exact absurd rfl hne
    | cons c w =>
        refine ⟨[c], mem_oneOf.mpr ⟨c, hall c List.mem_cons_self, rfl⟩, w, ?_, rfl⟩
        exact mem_star_oneOf.mpr fun d hd => hall d (List.mem_cons_of_mem c hd)

/-! ## The words of the pattern -/

theorem isSlugCharacter_ascii {c : Char} (h : isSlugCharacter c = true) : c.val ≤ 127 := by
  unfold isSlugCharacter Char.isLower Char.isDigit at h
  simp only [Bool.or_eq_true, Bool.and_eq_true, decide_eq_true_eq, beq_iff_eq] at h
  rcases h with (⟨_, hle⟩ | ⟨_, hle⟩) | rfl
  · exact UInt32.le_trans hle (by decide)
  · exact UInt32.le_trans hle (by decide)
  · decide

/-- The two descriptions of an ASCII character, one by one. -/
theorem isSlugCharacter_table : ∀ n : Fin 128, isSlugCharacter (Char.ofNat n) = true ↔
    Char.ofNat n ∈ slugLetters ∨ Char.ofNat n = '-' := by decide +kernel

theorem isSlugCharacter_iff {c : Char} : isSlugCharacter c = true ↔ c ∈ slugLetters ∨ c = '-' := by
  by_cases hc : c.val ≤ 127
  · have hlt : c.toNat < 128 := Nat.lt_succ_of_le (UInt32.le_iff_toNat_le.mp hc)
    have htable := isSlugCharacter_table ⟨c.toNat, hlt⟩
    rwa [show Char.ofNat c.toNat = c from Char.ofNat_toNat c] at htable
  · have hascii : ∀ d ∈ slugLetters, d.val ≤ 127 := List.forall_iff_forall_mem.mp (by decide)
    constructor
    · intro h
      exact absurd (isSlugCharacter_ascii h) hc
    · rintro (h | rfl)
      · exact absurd (hascii c h) hc
      · exact absurd (by decide) hc

/-- A text of such characters has a byte for each of them. -/
theorem byteSize_of_slugCharacters {slug : String}
    (h : ∀ c ∈ slug.toList, isSlugCharacter c = true) : byteSize slug = slug.length := by
  rw [byteSize_eq_sum, ← String.length_toList]
  generalize slug.toList = w at h
  induction w with
  | nil => rfl
  | cons c w ih =>
      have hone : c.utf8Size = 1 :=
        Char.utf8Size_eq_one_iff.mpr (isSlugCharacter_ascii (h c List.mem_cons_self))
      rw [List.map_cons, List.sum_cons, hone, ih fun d hd => h d (List.mem_cons_of_mem c hd),
        List.length_cons, Nat.add_comm]

/-- The pattern asks for characters of a slug, and for a character before, between and after its hyphens. -/
theorem mem_slugPattern {w : List Char} :
    w ∈ slugPattern.matches' ↔ (∀ c ∈ w, isSlugCharacter c = true) ∧ [] ∉ w.splitOn '-' := by
  have hlanguage : slugPattern.matches' = (oneOrMore (oneOf slugLetters)).matches'
      * (({['-']} : Language Char) * (oneOrMore (oneOf slugLetters)).matches')∗ := by
    unfold slugPattern
    rw [matches'_mul, matches'_star, matches'_mul, matches'_char]
  rw [hlanguage, Separated.mem_separated]
  constructor
  · rintro ⟨p, ps, hpieces, rfl⟩
    have hunbroken : ∀ q ∈ p :: ps, '-' ∉ q := fun q hq hmem =>
      absurd ((mem_oneOrMore.mp (hpieces q hq)).2 _ hmem) (by decide)
    refine ⟨fun c hc => ?_, fun hnil => ?_⟩
    · rcases Separated.mem_intercalate hc with rfl | ⟨q, hq, hcq⟩
      · decide
      · exact isSlugCharacter_iff.mpr (.inl ((mem_oneOrMore.mp (hpieces q hq)).2 c hcq))
    · rw [List.splitOn_intercalate _ hunbroken (List.cons_ne_nil p ps)] at hnil
      exact (mem_oneOrMore.mp (hpieces [] hnil)).1 rfl
  · rintro ⟨hall, hnil⟩
    cases hpieces : w.splitOn '-' with
    | nil => exact absurd hpieces (List.splitOn_ne_nil '-' w)
    | cons p ps =>
        refine ⟨p, ps, fun q hq => ?_, by rw [← hpieces, List.intercalate_splitOn]⟩
        rw [← hpieces] at hq
        refine mem_oneOrMore.mpr ⟨fun heq => hnil (heq ▸ hq), fun c hc => ?_⟩
        obtain ⟨hcw, hne⟩ := Separated.mem_of_mem_splitOn hq hc
        exact (isSlugCharacter_iff.mp (hall c hcw)).resolve_right hne

/-! ## The server's check beside the pattern -/

theorem validProblemSlug_iff {slug : String} :
    validProblemSlug slug = true ↔
      slug.toList ≠ [] ∧ slug.length ≤ 80 ∧ slug.toList.head? ≠ some '-'
        ∧ slug.toList.getLast? ≠ some '-' ∧ ∀ c ∈ slug.toList, isSlugCharacter c = true := by
  have hempty : slug ≠ "" ↔ slug.toList ≠ [] := not_congr String.toList_eq_nil_iff.symm
  unfold validProblemSlug
  simp only [Bool.and_eq_true, bne_iff_ne, decide_eq_true_eq, List.all_eq_true, hempty]
  constructor
  · rintro ⟨⟨⟨⟨hne, hsize⟩, hhead⟩, hlast⟩, hall⟩
    exact ⟨hne, byteSize_of_slugCharacters hall ▸ hsize, hhead, hlast, hall⟩
  · rintro ⟨hne, hlength, hhead, hlast, hall⟩
    exact ⟨⟨⟨⟨hne, (byteSize_of_slugCharacters hall).symm ▸ hlength⟩, hhead⟩, hlast⟩, hall⟩

theorem editorAccepts_iff {slug : String} :
    EditorAccepts slug ↔ validProblemSlug slug = true ∧ ¬['-', '-'] <:+: slug.toList := by
  unfold EditorAccepts
  rw [mem_slugPattern, Separated.nil_mem_splitOn_iff, validProblemSlug_iff]
  tauto

/-- The server accepts a text that the editor refuses: two hyphens in a row. -/
theorem doubled_hyphen_accepted :
    ¬ ∀ slug, validProblemSlug slug = true ↔ EditorAccepts slug := by
  intro h
  have haccepted : EditorAccepts "a--b" := (h "a--b").mp (by decide)
  refine (editorAccepts_iff.mp haccepted).2 ⟨['a'], ['b'], ?_⟩
  decide

/-- The server and the editor agree on a text exactly when it has no doubled hyphen, or has another fault
as well: too many characters, a hyphen first or last, or a character that no slug has. -/
theorem slug_agrees_iff (slug : String) :
    (validProblemSlug slug = true ↔ EditorAccepts slug) ↔
      ¬['-', '-'] <:+: slug.toList ∨ 80 < slug.length ∨ slug.toList.head? = some '-'
        ∨ slug.toList.getLast? = some '-' ∨ ∃ c ∈ slug.toList, isSlugCharacter c = false := by
  by_cases hdoubled : ['-', '-'] <:+: slug.toList
  · -- the editor refuses the text, so they agree when the server does too
    have hne : slug.toList ≠ [] := by
      intro hnil
      rw [hnil, List.infix_nil] at hdoubled
      cases hdoubled
    have hfault : (¬∀ c ∈ slug.toList, isSlugCharacter c = true) ↔
        ∃ c ∈ slug.toList, isSlugCharacter c = false := by
      simp
    rw [editorAccepts_iff, validProblemSlug_iff, ← hfault, ← Nat.not_le]
    tauto
  · refine ⟨fun _ => .inl hdoubled, fun _ => ?_⟩
    rw [editorAccepts_iff]
    exact ⟨fun hvalid => ⟨hvalid, hdoubled⟩, And.left⟩

end AlgorithmTrainer
