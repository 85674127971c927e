import AlgorithmTrainer.Problem.Seeding

/-!
# `Problem.Reopening` — restarts while the catalog is edited

The statements of any number of administrators' calls, and any number of openings, in any order. A problem of
the built-in catalog is inserted again wherever an opening does not find its id.

`reopenings_iff` is the main result: the openings of a run leave both tables as they are exactly if each of
them finds every built-in id. `unremoved_catalog` says when they do: as long as no built-in problem is
removed.
-/

namespace AlgorithmTrainer

open Interaction Interaction.Pool Transition Relational

section system
variable (ι : Type)

/-- A step of an administrator, or an opening: the database before it, its result, and the database after. -/
inductive SeedingEvent where
  | edit (e : CatalogEvent ι)
  | opening (before : Database) (result : Except Exception (Except ProblemRepositoryError Unit))
      (after : Database)

variable {ι}

/-- The event is an opening that returned a repository. -/
def OpeningSucceeds : SeedingEvent ι → Prop
  | .opening _ result _ => result = .ok (.ok ())
  | .edit _ => False

/-- The event leaves `problems` and `problem_tests` as they were, if it is an opening. -/
def LeavesCatalog : SeedingEvent ι → Prop
  | .opening before _ after =>
      after.problems = before.problems ∧ after.problemTests = before.problemTests
  | .edit _ => True

/-- The event finds the id of every built-in problem, if it is an opening. -/
def FindsCatalog (problems : List Problem) : SeedingEvent ι → Prop
  | .opening before _ _ => ∀ problem ∈ problems, HasProblem before (text problem.id)
  | .edit _ => True

variable [DecidableEq ι]

/-- The steps of the administrators, and openings. -/
inductive SeedingStep (P : Platform) (problems : List Problem) :
    CatalogPool ι → SeedingEvent ι → CatalogPool ι → Prop where
  | edit {p p' : CatalogPool ι} {e : CatalogEvent ι} (h : CatalogStep P p e p') :
      SeedingStep P problems p (.edit e) p'
  | opening {p : CatalogPool ι} {choices : Nat → Choice}
      {o : Except Exception (Except ProblemRepositoryError Unit) × World Choice (Session Database)}
      (h : (PostgreSQLProblemRepository.«open» problems).run serveSeed
        ⟨choices, .idle p.shared⟩ = o) :
      SeedingStep P problems p (.opening p.shared o.1 o.2.state.committed)
        { p with shared := o.2.state.committed }

variable {P : Platform} {problems : List Problem} {p p' : CatalogPool ι} {e : SeedingEvent ι}

/-- An opening that fails leaves the tables as they were. -/
theorem SeedingStep.leaves_of_failed (h : SeedingStep P problems p e p') (hfailed : ¬ OpeningSucceeds e) :
    LeavesCatalog e := by
  cases h with
  | edit _ => trivial
  | @opening choices o hrun =>
      have hends := @open_ends p.shared choices problems
      rw [hrun] at hends
      cases hends with
      | opened _ => exact absurd rfl hfailed
      | refused h =>
          simp only [LeavesCatalog, Session.committed_idle]
          rw [h]
          exact ⟨rfl, rfl⟩

/-- An opening that succeeds leaves the tables as they were exactly if it finds every built-in id. -/
theorem SeedingStep.leaves_iff (h : SeedingStep P problems p e p') (hopened : OpeningSucceeds e) :
    LeavesCatalog e ↔ FindsCatalog problems e := by
  cases h with
  | edit _ => exact Iff.rfl
  | @opening choices o hrun =>
      have hends := @open_ends p.shared choices problems
      rw [hrun] at hends
      cases hends with
      | refused _ => cases hopened
      | @opened db' _ hseeded =>
          constructor
          · rintro ⟨hsame, -⟩ problem hproblem
            obtain ⟨row, hrow, hid⟩ := hseeded.present problem hproblem
            exact ⟨row, hsame ▸ hrow, hid⟩
          · intro hfinds
            obtain rfl := hseeded.same hfinds
            exact ⟨rfl, rfl⟩

variable {db₀ : Database} {h : List (SeedingEvent ι)}

/-- **What restarts do to the catalog.** In every run, the openings leave `problems` and `problem_tests` as
    they were exactly if each of them finds the id of every built-in problem; and an opening that fails
    leaves them too, where a commit that fails has had no effect (`serveSeed`). -/
theorem reopenings_iff (hrun : Run (SeedingStep P problems) (idleCatalog ι db₀) h p) :
    ((∀ e ∈ h, OpeningSucceeds e → LeavesCatalog e) ↔ ∀ e ∈ h, OpeningSucceeds e → FindsCatalog problems e) ∧
      ∀ e ∈ h, ¬ OpeningSucceeds e → LeavesCatalog e := by
  have hsteps : ∀ e ∈ h, ∃ p p', SeedingStep P problems p e p' := by
    induction hrun with
    | start => exact fun _ he => absurd he List.not_mem_nil
    | next _ _ hstep ih =>
        intro e he
        rcases List.mem_cons.mp he with rfl | he
        · exact ⟨_, _, hstep⟩
        · exact ih e he
  refine ⟨forall_congr' fun e => forall_congr' fun he => forall_congr' fun hopened => ?_,
    fun e he hfailed => ?_⟩
  · obtain ⟨p, p', hstep⟩ := hsteps e he
    exact hstep.leaves_iff hopened
  · obtain ⟨p, p', hstep⟩ := hsteps e he
    exact hstep.leaves_of_failed hfailed

/-! ### Runs without removals -/

/-- A call of an administrator deletes the problem with this id. -/
def RemovesProblem : SeedingEvent ι → String → Prop
  | .edit (.call _ _ x), id => x.request = .execute (.deleteProblem id)
  | _, _ => False

/-- A problem stays until it is removed. -/
theorem ProblemEffect.hasProblem {db : Database} {q : BackendRequest} {r : q.Reply}
    {t : Table ProblemRow} {id : String} (heffect : ProblemEffect db q r t) (hid : HasProblem db id)
    (hkept : q ≠ .execute (.deleteProblem id)) : ∃ row ∈ t, row.id = id := by
  obtain ⟨row, hrow, rfl⟩ := hid
  cases heffect with
  | kept _ => exact ⟨row, hrow, rfl⟩
  | created _ _ _ => exact ⟨row, Table.mem_insert_of_mem hrow, rfl⟩
  | @updated p revision found hfound hat =>
      refine ⟨_, (Table.mem_update _).mpr ⟨row, hrow, rfl⟩, ?_⟩
      split <;> rfl
  | @removed old hold =>
      refine ⟨row, Table.mem_delete.mpr ⟨hrow, ?_⟩, rfl⟩
      rw [beq_eq_false_iff_ne]
      exact fun hid => hkept (by rw [hid])

/-- A problem stays until it is removed, also over openings. -/
theorem SeedingStep.hasProblem {id : String} (h : SeedingStep P problems p e p')
    (hid : HasProblem p.shared id) (hkept : ¬ RemovesProblem e id) : HasProblem p'.shared id := by
  cases h with
  | edit h =>
      cases h with
      | call _ => exact serve_problems.hasProblem hid hkept
      | control h =>
          obtain ⟨row, hrow, hid⟩ := hid
          exact ⟨row, (catalogControl_sameCatalog h).problems ▸ hrow, hid⟩
  | @opening choices o hrun =>
      have hends := @open_ends p.shared choices problems
      rw [hrun] at hends
      cases hends with
      | opened hseeded => exact hid.mono hseeded.kept
      | refused h =>
          simp only [Session.committed_idle]
          rw [h]
          exact hid

/-- **Restarts leave a catalog that keeps its built-in problems.** After an opening, as long as no
    administrator removes a built-in problem, openings leave both tables as they are, whatever else the
    administrators do. -/
theorem unremoved_catalog {choices : Nat → Choice} {w : World Choice (Session Database)}
    (hfirst : (PostgreSQLProblemRepository.«open» problems).run serveSeed ⟨choices, .idle db₀⟩ =
      (.ok (.ok ()), w))
    (hrun : Guarded (fun _ _ e => ∀ problem ∈ problems, ¬ RemovesProblem e (text problem.id))
      (SeedingStep P problems) (idleCatalog ι w.state.committed) h p) :
    ∀ e ∈ h, LeavesCatalog e := by
  have hends := @open_ends db₀ choices problems
  rw [hfirst] at hends
  cases hends with
  | opened hseeded =>
      refine (hrun.invariant (I := fun h p => (∀ e ∈ h, LeavesCatalog e) ∧
        ∀ problem ∈ problems, HasProblem p.shared (text problem.id)) ?_ ?_).1
      · exact ⟨fun _ he => absurd he List.not_mem_nil, hseeded.present⟩
      · rintro h p e p' ⟨hleaves, hall⟩ hkept hstep
        refine ⟨fun e' he => ?_, fun problem hproblem =>
          hstep.hasProblem (hall problem hproblem) (hkept problem hproblem)⟩
        rcases List.mem_cons.mp he with rfl | he
        · by_cases hopened : OpeningSucceeds e'
          · refine (hstep.leaves_iff hopened).mpr ?_
            cases hstep with
            | edit _ => trivial
            | opening _ => exact hall
          · exact hstep.leaves_of_failed hopened
        · exact hleaves e' he

end system

/-! ### A problem that an administrator removed -/

/-- The first problem of the built-in catalog. -/
def makeAPlusB : Problem where
  id := "a-plus-b"
  title := "A + B"
  description := "Read two integers, a and b, and print their sum."
  inputFormat := "One line containing two integers separated by a space."
  outputFormat := "Print one integer: a + b."
  difficulty := .easy
  tags := ["math", "implementation"]
  languages := ["python", "cpp"]
  examples := [⟨"2 3\n", "5\n"⟩]
  hiddenTests := [("2 3\n", "5\n"), ("0 0\n", "0\n"), ("-7 -5\n", "-12\n"),
      ("1000000000 2000000000\n", "3000000000\n"), ("-1 1\n", "0\n"), ("42 58\n", "100\n"),
      ("-100 40\n", "-60\n"), ("9 10\n", "19\n"), ("999999999 -999999999\n", "0\n"),
      ("-2000000000 -2000000000\n", "-4000000000\n")].map
    fun test => { input := test.1, expectedOutput := test.2 }

theorem TestsOwned.initial (now : Timestamp) : TestsOwned (Database.initial now) where
  drawn _ ht := absurd ht List.not_mem_nil
  owned _ ht := absurd ht List.not_mem_nil

/-- The database without a problem and its hidden tests. -/
def withoutProblem (id : String) (db : Database) : Database :=
  { db with
    problems := db.problems.delete (·.id == id)
    problemTests := db.problemTests.delete (·.problemId == id) }

theorem TestsOwned.without {db : Database} (hdb : TestsOwned db) (id : String) :
    TestsOwned (withoutProblem id db) where
  drawn t ht := hdb.drawn t (Table.mem_delete.mp ht).1
  owned t ht := by
    obtain ⟨ht, hother⟩ := Table.mem_delete.mp ht
    obtain ⟨row, hrow, hid⟩ := hdb.owned t ht
    exact ⟨row, Table.mem_delete.mpr ⟨hrow, by rw [hid]; exact hother⟩, hid⟩

/-- **A removed problem comes back.** The backend starts on an empty database, an administrator removes the
    problem `a-plus-b`, and the backend starts again: whatever else is built in, the second opening inserts
    the problem anew. -/
theorem removed_problem_returns : ¬ ∃ rest : List Problem,
    (∀ problem ∈ makeAPlusB :: rest, Storable problem) ∧
    ∀ (P : Platform) (db : Database) (choices : Nat → Choice) (w : World Choice (Session Database)),
    (PostgreSQLProblemRepository.«open» (makeAPlusB :: rest)).run serveSeed ⟨choices, .idle db⟩ =
      (.ok (.ok ()), w) →
    ∀ (h : List (SeedingEvent Unit)) (p : CatalogPool Unit),
    Run (SeedingStep P (makeAPlusB :: rest)) (idleCatalog Unit w.state.committed) h p →
    ∀ e ∈ h, OpeningSucceeds e → LeavesCatalog e := by
  rintro ⟨rest, hstorable, hclaim⟩
  obtain ⟨db₁, hfirst, hdb₁⟩ := open_calm (makeAPlusB :: rest) hstorable (TestsOwned.initial 0)
  obtain ⟨db₃, hsecond, -⟩ :=
    open_calm (makeAPlusB :: rest) hstorable (hdb₁.without (text "a-plus-b"))
  let idle := idleCatalog Unit db₁
  let removing : CatalogPool Unit :=
    { idle with thread := Function.update idle.thread () (CatalogCall.remove "a-plus-b").program }
  have hissue : CatalogStep .plain idle (.control (.issue () (.remove "a-plus-b"))) removing :=
    .control rfl
  obtain ⟨x, removed, hcall, hshared⟩ : ∃ x removed,
      CatalogStep .plain removing (.call () .calm x) removed ∧
        removed.shared = withoutProblem (text "a-plus-b") db₁ := ⟨_, _, .call rfl, rfl⟩
  rw [← hshared] at hsecond
  have hrestart := SeedingStep.opening (P := .plain) hsecond
  have hleaves := hclaim .plain (Database.initial 0) undisturbed _ hfirst _ _
    (((Run.next .start (.edit hissue)).next (.edit hcall)).next hrestart) _ List.mem_cons_self rfl
  obtain ⟨row, hrow, hid⟩ := (hrestart.leaves_iff rfl).mp hleaves makeAPlusB List.mem_cons_self
  rw [hshared] at hrow
  have hgone := (Table.mem_delete.mp hrow).2
  rw [hid, beq_eq_false_iff_ne] at hgone
  exact hgone rfl

/-- A restart of an undisturbed backend leaves both tables as they are. -/
theorem reopenings_iff_undisturbed : ∃ (db : Database) (h : List (SeedingEvent Unit))
    (p : CatalogPool Unit), Run (SeedingStep .plain [makeAPlusB]) (idleCatalog Unit db) h p ∧
    (∃ e ∈ h, OpeningSucceeds e) ∧ ∀ e ∈ h, OpeningSucceeds e → LeavesCatalog e := by
  have hstorable : ∀ problem ∈ [makeAPlusB], Storable problem := by
    intro problem hproblem
    obtain rfl := List.mem_singleton.mp hproblem
    unfold Storable
    decide
  obtain ⟨db₁, hfirst, hdb₁⟩ := open_calm [makeAPlusB] hstorable (TestsOwned.initial 0)
  obtain ⟨db₂, hsecond, -⟩ := open_calm [makeAPlusB] hstorable hdb₁
  have hfinds : ∀ problem ∈ [makeAPlusB], HasProblem db₁ (text problem.id) := by
    have hends := @open_ends (Database.initial 0) undisturbed [makeAPlusB]
    rw [hfirst] at hends
    cases hends with
    | opened hseeded => exact hseeded.present
  have hrun := Run.next .start
    (SeedingStep.opening (P := .plain) (p := idleCatalog Unit db₁) hsecond)
  refine ⟨db₁, _, _, hrun, ⟨_, List.mem_cons_self, rfl⟩, (reopenings_iff hrun).1.mpr ?_⟩
  intro e he _
  obtain rfl := List.mem_singleton.mp he
  exact hfinds

end AlgorithmTrainer
