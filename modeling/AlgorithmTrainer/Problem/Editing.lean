import AlgorithmTrainer.Lib.Revision
import AlgorithmTrainer.Problem.Catalog

/-!
# `Problem.Editing` — concurrent edits of problems and hidden tests

Any number of administrators call the problem repository, and the statements of their calls interleave. A
problem and a hidden test have a revision that an update must name, so both are instances of
`Revisions`. They differ in what may come back: the id of a hidden test is never used again, but a problem's
id is free again once the problem is removed.
-/

namespace AlgorithmTrainer

open Interaction Interaction.Pool Transition Relational

/-! ## Problems -/

/-- The problems that a reply shows. -/
def problemRows : (q : BackendRequest) → q.Reply → List ProblemRow
  | .execute (.selectProblems _), .tuples rows => rows
  | .execute (.selectProblem _ _), .tuples rows => rows
  | .execute (.insertProblem _), .tuples rows => rows
  | .execute (.updateProblem _ _), .tuples rows => rows
  | _, _ => []

def problemCreated : (q : BackendRequest) → q.Reply → Option String
  | .execute (.insertProblem p), .tuples (_ :: _) => some p.id
  | _, _ => none

/-- The problem that an update changed, and the revision it named. -/
def problemUpdated : (q : BackendRequest) → q.Reply → Option (String × Int)
  | .execute (.updateProblem p revision), .tuples (_ :: _) => some (p.id, revision)
  | _, _ => none

section problems
variable {P : Platform} {q : BackendRequest} {c : Choice} {db : Database} {r : q.Reply}
  {t : Table ProblemRow}

/-- A problem after a call was created by it, or raised, or was there as it is. -/
theorem ProblemEffect.next (h : ProblemEffect db q r t) {row : ProblemRow} (hrow : row ∈ t) :
    problemCreated q r = some row.id ∨
      ∃ old ∈ db.problems, old.id = row.id ∧ (old.revision < row.revision ∨
        (row.revision = old.revision ∧ problemWritten q r ≠ some row.id)) := by
  cases h with
  | kept h =>
      refine Or.inr ⟨row, hrow, rfl, Or.inr ⟨rfl, ?_⟩⟩
      rw [h]
      exact fun he => (by cases he)
  | @created p new hid _ hnew =>
      rcases Table.mem_insert.mp hrow with hold | ⟨rfl, -⟩
      · refine Or.inr ⟨row, hold, rfl, Or.inr ⟨rfl, fun he => ?_⟩⟩
        exact hnew row hold (Option.some.inj he).symm
      · exact Or.inl (congrArg some hid.symm)
  | @updated p revision found hfound hat =>
      obtain ⟨old, hold, rfl⟩ := (Table.mem_update _).mp hrow
      split
      · exact Or.inr ⟨old, hold, rfl, Or.inl (Int.lt_succ _)⟩
      · rename_i hnot
        refine Or.inr ⟨old, hold, rfl, Or.inr ⟨rfl, fun he => hnot ?_⟩⟩
        have hid : found.id = old.id := (problemAt_iff.mp hat).1.trans (Option.some.inj he)
        rw [Table.eq_of_key hold hfound hid.symm]
        exact hat
  | @removed old hold =>
      obtain ⟨hrow, hkept⟩ := Table.mem_delete.mp hrow
      refine Or.inr ⟨row, hrow, rfl, Or.inr ⟨rfl, fun he => ?_⟩⟩
      have hid : old.id = row.id := Option.some.inj he
      simp [hid] at hkept

theorem problemWritten_of_created {id : String} (h : problemCreated q r = some id) :
    problemWritten q r = some id := by
  unfold problemCreated at h
  split at h
  · exact h
  · cases h

/-- An update that took effect found the revision it named. -/
theorem ProblemEffect.found (h : ProblemEffect db q r t) {id : String} {revision : Int}
    (hu : problemUpdated q r = some (id, revision)) :
    ∃ row ∈ db.problems, row.id = id ∧ row.revision = revision := by
  cases h with
  | kept h =>
      unfold problemUpdated at hu
      split at hu
      · cases h
      · cases hu
  | created => cases hu
  | @updated p revision' row hrow hat =>
      cases hu
      exact ⟨row, hrow, problemAt_iff.mp hat⟩
  | removed => cases hu

/-- A call that was rejected leaves the problems as they are. -/
theorem ProblemEffect.eq_of_none (h : ProblemEffect db q r t) (hnone : problemWritten q r = none) :
    t = db.problems := by
  cases h with
  | kept => rfl
  | created => cases hnone
  | updated => cases hnone
  | removed => cases hnone

/-- A write returns the row it wrote. -/
theorem ProblemEffect.shown (h : ProblemEffect db q r t) {row : ProblemRow}
    (hrow : row ∈ problemRows q r) (hw : problemWritten q r ≠ none) : row ∈ t := by
  cases h with
  | kept h => exact absurd h hw
  | @created p new hid _ hnew =>
      obtain rfl := List.mem_singleton.mp hrow
      refine Table.mem_insert.mpr (Or.inr ⟨rfl, fun hkey => ?_⟩)
      obtain ⟨x, hx, he⟩ := List.mem_map.mp hkey
      exact hnew x hx (he.trans hid)
  | @updated p revision found hfound hat =>
      obtain rfl := List.mem_singleton.mp hrow
      exact Table.mem_update_of_pos hfound hat _
  | removed => cases hrow

/-- A reply shows problems as they are after the call. -/
theorem serve_problemRows {row : ProblemRow} (h : row ∈ problemRows q (serve P q c db).1) :
    row ∈ (serve P q c db).2.problems := by
  have hselect : ∀ s : Statement, s.setsCatalog = false → q = .execute s →
      (serve P q c db).2.problems = db.problems := by
    rintro s hs rfl
    exact (serve_sameCatalog fun s' he => by cases he; exact hs).problems
  match q with
  | .randomToken | .passwordHash _ | .judge _ | .executeLocked _ _ => cases h
  | .execute s =>
      rcases serveStatement_cases (P := P) s c db with ⟨-, hr⟩ | ⟨-, hr⟩
      · rw [serve_execute, hr] at h
        cases s <;> cases h
      · cases s with
        | selectProblems onlyEnabled =>
            rw [hselect _ rfl rfl]
            rw [serve_execute, hr] at h
            exact (Table.mem_select.mp (mem_orderBy.mp h)).1
        | selectProblem id onlyEnabled =>
            rw [hselect _ rfl rfl]
            rw [serve_execute, hr] at h
            exact (Table.mem_select.mp h).1
        | insertProblem p =>
            refine serve_problems.shown h fun hnone => ?_
            match hreply : (serve P (.execute (.insertProblem p)) c db).1 with
            | .tuples (_ :: _) => rw [hreply] at hnone; cases hnone
            | .tuples [] | .none | .failed _ _ | .command => rw [hreply] at h; cases h
        | updateProblem p revision =>
            refine serve_problems.shown h fun hnone => ?_
            match hreply : (serve P (.execute (.updateProblem p revision)) c db).1 with
            | .tuples (_ :: _) => rw [hreply] at hnone; cases hnone
            | .tuples [] | .none | .failed _ _ | .command => rw [hreply] at h; cases h
        | _ => cases h

end problems

section problemRuns
variable {ι : Type} [DecidableEq ι] {P : Platform}

/-- The event shows somebody a problem at this revision. -/
def ShowsProblem : CatalogEvent ι → String → Int → Prop
  | .call _ _ x, id, revision =>
      ∃ row ∈ problemRows x.request x.reply, row.id = id ∧ row.revision = revision
  | .control _, _, _ => False

/-- The event commits a `create`, an `update` or a `remove` of this problem. -/
def WritesProblem : CatalogEvent ι → String → Prop
  | .call _ _ x, id => problemWritten x.request x.reply = some id
  | .control _, _ => False

/-- The event commits a `create` of this problem. -/
def CreatesProblem : CatalogEvent ι → String → Prop
  | .call _ _ x, id => problemCreated x.request x.reply = some id
  | .control _, _ => False

/-- The event commits an `update` of this problem that named this revision. -/
def UpdatesProblem : CatalogEvent ι → String → Int → Prop
  | .call _ _ x, id, revision => problemUpdated x.request x.reply = some (id, revision)
  | .control _, _, _ => False

/-- Problems and their revisions, in the system the catalog is edited in. -/
def problemRevisions (ι : Type) [DecidableEq ι] (P : Platform) :
    Revisions String (CatalogStep (ι := ι) P) where
  has p id revision := ∃ row ∈ p.shared.problems, row.id = id ∧ row.revision = revision
  shows := ShowsProblem
  writes := WritesProblem
  creates := CreatesProblem
  expects := UpdatesProblem
  has_unique := by
    rintro p id _ _ ⟨row, hrow, hid, rfl⟩ ⟨row', hrow', hid', rfl⟩
    rw [Table.eq_of_key hrow hrow' (hid.trans hid'.symm)]
  has_of_shows := by
    rintro p e p' id revision hstep hshows
    cases hstep with
    | call _ =>
        obtain ⟨row, hrow, hat⟩ := hshows
        exact ⟨row, serve_problemRows hrow, hat⟩
    | control _ => exact hshows.elim
  has_of_expects := by
    rintro p e p' id revision hstep hexpects
    cases hstep with
    | call _ => exact serve_problems.found hexpects
    | control _ => exact hexpects.elim
  writes_of_creates := by
    intro e id h
    cases e with
    | call i c x => exact problemWritten_of_created h
    | control b => exact h
  next := by
    rintro p e p' id _ hstep ⟨row, hrow, rfl, rfl⟩
    cases hstep with
    | call _ =>
        rcases serve_problems.next hrow with hcreated | ⟨old, hold, hid, hgrown⟩
        · exact Or.inl hcreated
        · exact Or.inr ⟨old.revision, ⟨old, hold, hid, rfl⟩, hgrown⟩
    | control h =>
        rw [(catalogControl_sameCatalog h).problems] at hrow
        exact Or.inr ⟨row.revision, ⟨row, hrow, rfl, rfl⟩, Or.inr ⟨rfl, fun h => h⟩⟩

variable {db₀ : Database} {h : List (CatalogEvent ι)} {p p' : CatalogPool ι} {i : ι} {c : Choice}
  {x : Exchange Backend} {problem : Problem}

/-- An `update` is one statement: it returns the problem with its new revision if a row was changed, and
    an error if none was. -/
theorem update_step (hcall : p.thread i = (CatalogCall.update problem).program)
    (hstep : CatalogStep P p (.call i c x) p') :
    ProblemEffect p.shared x.request x.reply p'.shared.problems ∧
      ((∃ row, problemUpdated x.request x.reply = some (text problem.id, problem.revision) ∧
          row ∈ problemRows x.request x.reply ∧
          p'.thread i = .ret (.written (.ok { problem with revision := row.revision }))) ∨
        (problemWritten x.request x.reply = none ∧
          ∃ error, p'.thread i = .ret (.written (.error error)))) := by
  cases hstep with
  | call h =>
      rw [hcall] at h
      cases h
      refine ⟨serve_problems, ?_⟩
      dsimp only
      rw [Function.update_self]
      match (serve P (.execute (.updateProblem (PostgreSQLProblemRepository.parameters problem)
        problem.revision)) c p.shared).1 with
      | .tuples (row :: _) => exact Or.inl ⟨row, rfl, List.mem_cons_self, rfl⟩
      | .tuples [] | .none | .failed _ _ | .command => exact Or.inr ⟨rfl, _, rfl⟩

/-- **What an update overwrites.** In every run, an update that succeeds finds that nobody created, updated
    or removed the problem since a revision was shown that the update names, exactly if nobody created
    it since; and an update that is rejected leaves the problems as they are. -/
theorem updates_overwrite_iff (hrun : Run (CatalogStep P) (idleCatalog ι db₀) h p)
    (hcall : p.thread i = (CatalogCall.update problem).program)
    (hstep : CatalogStep P p (.call i c x) p') :
    (∀ updated, p'.thread i = .ret (.written (.ok updated)) → ∀ h₁ o h₂, h = h₁ ++ o :: h₂ →
      ShowsProblem o (text problem.id) problem.revision →
      ((∀ e ∈ h₁, ¬ WritesProblem e (text problem.id)) ↔
        ∀ e ∈ h₁, ¬ CreatesProblem e (text problem.id))) ∧
    (∀ error, p'.thread i = .ret (.written (.error error)) →
      p'.shared.problems = p.shared.problems) := by
  obtain ⟨heffect, hresult⟩ := update_step hcall hstep
  constructor
  · rintro updated hok h₁ o h₂ rfl hshown
    rcases hresult with ⟨_, hupdated, -, -⟩ | ⟨-, error, herror⟩
    · exact (problemRevisions ι P).fresh_iff (hrun.next hstep) hshown hupdated
    · rw [herror] at hok
      cases hok
  · intro error herror
    rcases hresult with ⟨row, -, -, hok⟩ | ⟨hnone, -⟩
    · rw [herror] at hok
      cases hok
    · exact heffect.eq_of_none hnone

end problemRuns

/-! ### A problem that comes back -/

/-- A problem as an administrator edits it. -/
def sumProblem (title : String) : Problem :=
  { id := "sum", title := title, description := "Add the numbers.", inputFormat := "",
    outputFormat := "", languages := ["python"] }

/-- One problem, at its first revision. -/
def oneProblem : Database :=
  { Database.initial 0 with
      problems := Table.empty.insert ⟨"sum", "Sum", "Add the numbers.", "", "", "Easy", .array [],
        .array [.string "python"], .array [], true, 0, 0, 1⟩ }

abbrev EditMove := Bool × Choice ⊕ CatalogControl Bool

/-- An administrator calls `find_any`, which sends two statements. -/
def findSum (i : Bool) : List EditMove :=
  [.inr (.issue i (.findAny "sum")), .inl (i, .calm), .inl (i, .calm)]

/-- One administrator loads the problem, another removes it and creates it anew, and the first is about to
    save. -/
def staleEdit : List EditMove :=
  findSum false ++
    [.inr (.issue true (.remove "sum")), .inl (true, .calm),
      .inr (.issue true (.create (sumProblem "Another sum"))), .inl (true, .calm),
      .inr (.issue false (.update (sumProblem "My sum")))]

/-- An administrator loads the problem and is about to save. -/
def freshEdit : List EditMove :=
  findSum false ++ [.inr (.issue false (.update (sumProblem "My sum")))]

def playedEdit (moves : List EditMove) :
    Option (List (CatalogEvent Bool) × CatalogPool Bool) :=
  script (serve .plain) catalogControl moves [] (idleCatalog Bool oneProblem)

/-- **A stale update overwrites a problem.** The update names the revision that was shown before the problem
    was removed and created anew, and succeeds. -/
theorem stale_update_succeeds : ¬ ∀ (P : Platform) (db₀ : Database) (h : List (CatalogEvent Bool))
    (p p' : CatalogPool Bool) (i : Bool) (c : Choice) (x : Exchange Backend) (problem : Problem),
    Run (CatalogStep P) (idleCatalog Bool db₀) h p →
    p.thread i = (CatalogCall.update problem).program → CatalogStep P p (.call i c x) p' →
    ∀ updated, p'.thread i = .ret (.written (.ok updated)) → ∀ h₁ o h₂, h = h₁ ++ o :: h₂ →
      ShowsProblem o (text problem.id) problem.revision →
      ∀ e ∈ h₁, ¬ WritesProblem e (text problem.id) := by
  intro hclaim
  have hplayed : (playedEdit staleEdit).isSome = true := by decide
  have hrun := run_of_script .start (Option.some_get hplayed).symm
  have hunseen := hclaim .plain oneProblem _ _ _ false .calm _ (sumProblem "My sum") hrun rfl
    (.call rfl) _ rfl
  have hcreated := hunseen (((playedEdit staleEdit).get hplayed).1.take 6) _
    (((playedEdit staleEdit).get hplayed).1.drop 7) rfl ⟨_, List.mem_cons_self, rfl, rfl⟩
  exact hcreated _ (List.mem_cons_of_mem _ List.mem_cons_self) rfl

/-- An update by whoever loaded the problem last overwrites nothing unseen. -/
theorem updates_overwrite_iff_fresh : ∃ (h : List (CatalogEvent Bool)) (p p' : CatalogPool Bool)
    (x : Exchange Backend), Run (CatalogStep .plain) (idleCatalog Bool oneProblem) h p ∧
    CatalogStep .plain p (.call false .calm x) p' ∧
    (∃ updated, p'.thread false = .ret (.written (.ok updated))) ∧
    ∀ e ∈ h.take 2, ¬ WritesProblem e "sum" := by
  have hplayed : (playedEdit freshEdit).isSome = true := by decide
  have hrun := run_of_script .start (Option.some_get hplayed).symm
  have hstep : CatalogStep .plain ((playedEdit freshEdit).get hplayed).2 (.call false .calm _) _ :=
    .call rfl
  have hiff := (@updates_overwrite_iff Bool _ .plain _ _ _ _ _ _ _ (sumProblem "My sum") hrun rfl
    hstep).1 _ rfl (((playedEdit freshEdit).get hplayed).1.take 2) _
    (((playedEdit freshEdit).get hplayed).1.drop 3) rfl ⟨_, List.mem_cons_self, rfl, rfl⟩
  refine ⟨_, _, _, _, hrun, hstep, ⟨_, rfl⟩, hiff.mpr ?_⟩
  intro e he
  rcases List.mem_cons.mp he with rfl | he
  · exact fun h => h
  · obtain rfl := List.mem_singleton.mp he
    exact fun h => (by cases h)

end AlgorithmTrainer
