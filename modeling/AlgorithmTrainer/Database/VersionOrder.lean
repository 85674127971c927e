import AlgorithmTrainer.Database.Migrations

/-!
# `Database.VersionOrder` — the order of the migrations and their versions

`apply_migrations` looks at the files in the order of their names, as texts, and takes the version of each
from the digits that its name begins with. A version that is recorded is skipped, also where an earlier file
of the same directory recorded it.

`version_order_iff` says for which directories this executes every migration once, in the order of the
versions, and rejects what has no such order.
-/

namespace AlgorithmTrainer
namespace Migrations

open Interaction Transition Relational

/-! ## Numbered names -/

/-- What a name has before its first `'-'`. -/
def beforeDash (name : String) : List Char := name.toList.takeWhile (· != '-')

/-- The number that a name has before its first `'-'`, if that is entirely a number. -/
def number (name : String) : Option Nat :=
  if '-' ∈ name.toList ∧ beforeDash name ≠ [] ∧ (beforeDash name).all Char.isDigit = true then
    some ((beforeDash name).foldl (fun n c => n * 10 + (c.toNat - '0'.toNat)) 0)
  else none

/-- The number of one name is less than that of another. -/
def Before (a b : DirectoryEntry) : Prop := ∃ n ∈ number a.name, ∃ m ∈ number b.name, n < m

instance (a b : DirectoryEntry) : Decidable (Before a b) :=
  inferInstanceAs (Decidable (∃ n ∈ number a.name, ∃ m ∈ number b.name, n < m))

/-- Every name has a positive number before its first `'-'`, and no number occurs twice. -/
structure Numbered (files : List DirectoryEntry) : Prop where
  positive : ∀ file ∈ files, ∃ n, number file.name = some n ∧ 0 < n
  distinct : (files.filterMap fun file => number file.name).Nodup

/-- There is no telling the version of a file, or which of two comes first. -/
def Ambiguous (files : List DirectoryEntry) : Prop :=
  (∃ file ∈ files, number file.name = none) ∨ ¬ (files.filterMap fun file => number file.name).Nodup

/-- What a fresh database is to get from these migrations: numbered ones each once, in the order of their
    numbers; and ambiguous ones are rejected. -/
structure InVersionOrder (files : List DirectoryEntry) (error : Option String) (committed : List Write) :
    Prop where
  executed : Numbered files → error = none ∧ ∃ order : List DirectoryEntry, order.Perm files ∧
    order.Pairwise Before ∧ committed = .track :: order.flatMap fileWrites
  rejected : Ambiguous files → error ≠ none

/-- If `apply_migrations` takes a version from every name, the text before the `'-'` is a number in all of
    them, and the order of the names is that of the numbers. If it does not, the names are not numbered. -/
def NamesAgree (files : List DirectoryEntry) : Prop :=
  if ∀ file ∈ files, (version file.name).isSome = true then
    (∀ file ∈ files, (number file.name).isSome = true) ∧ files.Pairwise Before
  else ¬ Numbered files

section names
variable {a b file : DirectoryEntry} {files : List DirectoryEntry} {name : String} {n : Nat}

/-- Where the text before the `'-'` is a number, that is the version, unless it is 0 or does not fit. -/
theorem version_of_number (h : number name = some n) :
    version name = if n ≤ 2147483647 ∧ 0 < n then some (n : Int) else none := by
  unfold number at h
  by_cases hname : '-' ∈ name.toList ∧ beforeDash name ≠ [] ∧ (beforeDash name).all Char.isDigit = true
  · rw [if_pos hname] at h
    obtain ⟨hdash, hne, hdigits⟩ := hname
    -- `from_chars` reads all of it
    have hall : (beforeDash name).takeWhile Char.isDigit = beforeDash name :=
      List.takeWhile_eq_self_iff.mpr (List.all_eq_true.mp hdigits)
    have hall' : (name.toList.takeWhile (· != '-')).takeWhile Char.isDigit = beforeDash name := hall
    simp only [version, hall', Option.some.inj h]
    by_cases hfits : n ≤ 2147483647 ∧ 0 < n
    · rw [if_pos hfits, if_pos ⟨hdash, hne, hfits⟩]
    · rw [if_neg hfits, if_neg fun hvalid => hfits hvalid.2.2]
  · rw [if_neg hname] at h
    cases h

theorem positive_of_version (h : number name = some n) (hversion : (version name).isSome = true) :
    0 < n ∧ version name = some (n : Int) := by
  rw [version_of_number h] at hversion ⊢
  by_cases hfits : n ≤ 2147483647 ∧ 0 < n
  · rw [if_pos hfits]
    exact ⟨hfits.2, rfl⟩
  · rw [if_neg hfits] at hversion
    cases hversion

/-- Numbers that increase are different. -/
theorem distinct_of_before (h : files.Pairwise Before) :
    (files.filterMap fun file => number file.name).Nodup := by
  refine List.Pairwise.filterMap _ ?_ h
  rintro a b ⟨n, hn, m, hm, hlt⟩ n' hn' m' hm' rfl
  rw [hn] at hn'
  rw [hm] at hm'
  cases hn'
  cases hm'
  exact absurd hlt (Nat.lt_irrefl _)

/-- Among names with versions, the numbers increase exactly if the versions do. -/
theorem pairwise_before_iff (hnumber : ∀ file ∈ files, (number file.name).isSome = true)
    (hversion : ∀ file ∈ files, (version file.name).isSome = true) :
    files.Pairwise Before ↔
      (files.map fun file => (version file.name).getD 0).Pairwise (· < ·) := by
  rw [List.pairwise_map]
  refine List.Pairwise.iff_of_mem fun {a b} ha hb => ?_
  obtain ⟨n, hn⟩ := Option.isSome_iff_exists.mp (hnumber a ha)
  obtain ⟨m, hm⟩ := Option.isSome_iff_exists.mp (hnumber b hb)
  rw [(positive_of_version hn (hversion a ha)).2, (positive_of_version hm (hversion b hb)).2]
  simp [Before, hn, hm]

end names

/-! ## What a run commits -/

/-- The version that a write records. -/
def Write.version : Write → Option Int
  | .record v => some v
  | .track | .run _ => none

section committed
variable {files order : List DirectoryEntry} {committed : List Write}

theorem versions_fileWrites (files : List DirectoryEntry) :
    (files.flatMap fileWrites).filterMap Write.version
      = files.map fun file => (version file.name).getD 0 := by
  induction files with
  | nil => rfl
  | cons file files ih => simp [fileWrites, List.filterMap_cons, Write.version, ih]

/-- A run commits some of the migrations, in the order of their names. -/
theorem commits_sublist (committed : List Write) (files : List DirectoryEntry) :
    ∃ fresh : List DirectoryEntry, fresh.Sublist files ∧
      commits committed files = committed ++ fresh.flatMap fileWrites := by
  induction files generalizing committed with
  | nil => exact ⟨[], List.Sublist.refl _, by simp [commits]⟩
  | cons file files ih =>
      cases hv : version file.name with
      | none => exact ⟨[], List.nil_sublist _, by simp [commits, hv]⟩
      | some v =>
          by_cases hmem : Write.record v ∈ committed
          · obtain ⟨fresh, hfresh, hcommits⟩ := ih committed
            refine ⟨fresh, hfresh.cons file, ?_⟩
            simp only [commits, hv, if_pos hmem, hcommits]
          · obtain ⟨fresh, hfresh, hcommits⟩ := ih (committed ++ [.run (cStr file.content), .record v])
            refine ⟨file :: fresh, hfresh.cons_cons file, ?_⟩
            simp only [commits, hv, if_neg hmem, hcommits]
            simp [fileWrites, hv]

/-- It commits all of them where no version is recorded before or occurs twice. -/
theorem commits_all (hnew : ∀ file ∈ files, ∃ v, version file.name = some v ∧ .record v ∉ committed)
    (hdistinct : files.Pairwise fun a b => version a.name ≠ version b.name) :
    commits committed files = committed ++ files.flatMap fileWrites := by
  induction files generalizing committed with
  | nil => simp [commits]
  | cons file files ih =>
      obtain ⟨v, hv, hmem⟩ := hnew file List.mem_cons_self
      obtain ⟨hfile, hfiles⟩ := List.pairwise_cons.mp hdistinct
      have hnew' : ∀ g ∈ files, ∃ v', version g.name = some v' ∧
          .record v' ∉ committed ++ [Write.run (cStr file.content), .record v] := by
        intro g hg
        obtain ⟨v', hv', hmem'⟩ := hnew g (List.mem_cons_of_mem file hg)
        have hne : v' ≠ v := by
          intro heq
          exact hfile g hg (by rw [hv, hv', heq])
        exact ⟨v', hv', by simp [hmem', hne]⟩
      simp only [commits, hv, if_neg hmem]
      rw [ih hnew' hfiles]
      simp [fileWrites, hv]

end committed

/-! ## The condition -/

section condition
variable {files : List DirectoryEntry}

theorem firstInvalid_eq_none_iff :
    firstInvalid files = none ↔ ∀ file ∈ files, (version file.name).isSome = true := by
  unfold firstInvalid
  rw [Option.map_eq_none_iff, List.find?_eq_none]
  refine forall₂_congr fun file _ => ?_
  cases version file.name <;> simp

/-- Names that agree with their numbers. -/
theorem inVersionOrder_of_before (hnumber : ∀ file ∈ files, (number file.name).isSome = true)
    (hversion : ∀ file ∈ files, (version file.name).isSome = true) (hbefore : files.Pairwise Before) :
    InVersionOrder files (firstInvalid files) (commits (tracked []) files) := by
  refine ⟨fun _ => ⟨firstInvalid_eq_none_iff.mpr hversion, files, .refl _, hbefore, ?_⟩, ?_⟩
  · have hnew : ∀ file ∈ files, ∃ v, version file.name = some v ∧ Write.record v ∉ tracked [] := by
      intro file hfile
      obtain ⟨v, hv⟩ := Option.isSome_iff_exists.mp (hversion file hfile)
      exact ⟨v, hv, by simp [tracked]⟩
    have hdistinct : files.Pairwise fun a b => version a.name ≠ version b.name := by
      refine hbefore.imp_of_mem ?_
      rintro a b ha hb ⟨n, hn, m, hm, hlt⟩
      rw [(positive_of_version hn (hversion a ha)).2, (positive_of_version hm (hversion b hb)).2]
      intro heq
      have hnm : (n : Int) = m := Option.some.inj heq
      omega
    rw [commits_all hnew hdistinct]
    rfl
  · rintro (⟨file, hfile, hnone⟩ | hrepeated)
    · have hsome := hnumber file hfile
      rw [hnone] at hsome
      cases hsome
    · exact absurd (distinct_of_before hbefore) hrepeated

/-- Where every version is taken and nothing is skipped or out of order, the names agree with their numbers. -/
theorem before_of_inVersionOrder (hversion : ∀ file ∈ files, (version file.name).isSome = true)
    (h : InVersionOrder files (firstInvalid files) (commits (tracked []) files)) :
    (∀ file ∈ files, (number file.name).isSome = true) ∧ files.Pairwise Before := by
  have hnone : firstInvalid files = none := firstInvalid_eq_none_iff.mpr hversion
  -- nothing is rejected, so nothing is ambiguous
  have hclear : ¬ Ambiguous files := fun hambiguous => h.rejected hambiguous hnone
  have hnumber : ∀ file ∈ files, (number file.name).isSome = true := by
    intro file hfile
    cases hn : number file.name with
    | none => exact absurd (Or.inl ⟨file, hfile, hn⟩) hclear
    | some n => rfl
  have hnumbered : Numbered files := by
    refine ⟨fun file hfile => ?_, ?_⟩
    · obtain ⟨n, hn⟩ := Option.isSome_iff_exists.mp (hnumber file hfile)
      exact ⟨n, hn, (positive_of_version hn (hversion file hfile)).1⟩
    · by_contra hrepeated
      exact hclear (Or.inr hrepeated)
  refine ⟨hnumber, ?_⟩
  obtain ⟨-, order, hperm, hbefore, hcommitted⟩ := h.executed hnumbered
  obtain ⟨fresh, hfresh, hcommits⟩ := commits_sublist (tracked []) files
  have hsame : fresh.flatMap fileWrites = order.flatMap fileWrites := by
    rw [hcommits] at hcommitted
    exact (List.cons.inj hcommitted).2
  have hversions : (fresh.map fun file => (version file.name).getD 0)
      = order.map fun file => (version file.name).getD 0 := by
    rw [← versions_fileWrites, ← versions_fileWrites, hsame]
  -- as many files are executed as there are, so these are all of them
  have hlength : fresh.length = files.length := by
    have hlengths := congrArg List.length hversions
    rw [List.length_map, List.length_map] at hlengths
    rw [hlengths, hperm.length_eq]
  have hall : fresh = files := hfresh.eq_of_length hlength
  rw [pairwise_before_iff hnumber hversion, ← hall, hversions]
  refine (pairwise_before_iff ?_ ?_).mp hbefore
  · exact fun file hfile => hnumber file (hperm.mem_iff.mp hfile)
  · exact fun file hfile => hversion file (hperm.mem_iff.mp hfile)

/-- **The version order**, of the migrations of a directory. -/
theorem inVersionOrder_iff : InVersionOrder files (firstInvalid files) (commits (tracked []) files) ↔
    NamesAgree files := by
  unfold NamesAgree
  by_cases hversion : ∀ file ∈ files, (version file.name).isSome = true
  · rw [if_pos hversion]
    constructor
    · exact before_of_inVersionOrder hversion
    · rintro ⟨hnumber, hbefore⟩
      exact inVersionOrder_of_before hnumber hversion hbefore
  · rw [if_neg hversion]
    have hinvalid : firstInvalid files ≠ none := fun hnone =>
      hversion (firstInvalid_eq_none_iff.mp hnone)
    constructor
    · intro h hnumbered
      exact hinvalid (h.executed hnumbered).1
    · intro hnumbered
      exact ⟨fun h => absurd h hnumbered, fun _ => hinvalid⟩

end condition

/-- **Migrations in version order.** On an empty database, and where nothing fails, `apply_migrations`
    executes numbered migrations each once, in the order of their numbers, and rejects ambiguous ones, exactly
    for the directories where the names agree with the numbers. -/
theorem version_order_iff {ι : Type} [DecidableEq ι] {entries : List DirectoryEntry}
    (hnames : (entries.map (·.name)).Nodup) (i : ι) (choices : Nat → Answer entries)
    (hcalm : ∀ n, (choices n).Calm) :
    (∃ error, ((applyMigrations i).run (migrationService entries)
        ⟨choices, emptyDatabase ι⟩).1 = .ok error ∧
      InVersionOrder (migrations entries) error
        ((applyMigrations i).run (migrationService entries)
          ⟨choices, emptyDatabase ι⟩).2.state.committed) ↔
    NamesAgree (migrations entries) := by
  obtain ⟨w, hrun, hcommitted⟩ := applyMigrations_run (i := i) (w := ⟨choices, emptyDatabase ι⟩)
    hnames hcalm
  rw [hrun, ← inVersionOrder_iff]
  dsimp only
  rw [hcommitted]
  constructor
  · rintro ⟨error, herror, horder⟩
    cases herror
    exact horder
  · intro horder
    exact ⟨_, rfl, horder⟩

/-! ### Two digits after one -/

/-- The second migration, and the tenth. -/
def tenBeforeTwo : List DirectoryEntry :=
  [⟨"2-tags.sql", true, "CREATE TABLE tags"⟩, ⟨"10-tag-index.sql", true, "CREATE INDEX ON tags(name)"⟩]

/-- **The tenth comes before the second.** As a text, `"10-"` is less than `"2-"`. -/
theorem ten_before_two : ¬ ∀ (entries : List DirectoryEntry) (i : Unit) (choices : Nat → Answer entries),
    (entries.map (·.name)).Nodup → (∀ n, (choices n).Calm) →
    ∃ error, ((applyMigrations i).run (migrationService entries)
        ⟨choices, emptyDatabase Unit⟩).1 = .ok error ∧
      InVersionOrder (migrations entries) error
        ((applyMigrations i).run (migrationService entries)
          ⟨choices, emptyDatabase Unit⟩).2.state.committed := by
  intro hclaim
  let calm : Answer tenBeforeTwo := ⟨.served, "", true, true, .ok ⟨tenBeforeTwo, .refl _⟩, true⟩
  have hcalm : calm.Calm := ⟨rfl, rfl, ⟨_, rfl⟩, rfl⟩
  have hnames : (tenBeforeTwo.map (·.name)).Nodup := by decide
  obtain ⟨error, herror, horder⟩ := hclaim tenBeforeTwo () (fun _ => calm) hnames fun _ => hcalm
  obtain ⟨w, hrun, hcommitted⟩ := applyMigrations_run (i := ())
    (w := ⟨fun _ => calm, emptyDatabase Unit⟩) hnames fun _ => hcalm
  rw [hrun] at herror horder
  cases herror
  dsimp only at horder
  rw [hcommitted] at horder
  have hbefore := (before_of_inVersionOrder (by decide) horder).2
  exact absurd hbefore (by decide)

/-- A directory whose names agree with the numbers. -/
theorem version_order_two :
    ∃ error, ((applyMigrations ()).run (migrationService twoMigrations)
        ⟨fun _ => calmAnswer, emptyDatabase Unit⟩).1 = .ok error ∧
      InVersionOrder (migrations twoMigrations) error
        ((applyMigrations ()).run (migrationService twoMigrations)
          ⟨fun _ => calmAnswer, emptyDatabase Unit⟩).2.state.committed := by
  refine (version_order_iff (by decide) () (fun _ => calmAnswer) fun _ => calmAnswer_calm).mpr ?_
  unfold NamesAgree
  rw [if_pos (by decide)]
  exact ⟨by decide, by decide⟩

end Migrations
end AlgorithmTrainer
