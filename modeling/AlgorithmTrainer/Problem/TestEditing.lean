import AlgorithmTrainer.Problem.Editing

/-!
# `Problem.TestEditing` — concurrent edits of hidden tests

The hidden tests of a problem have ids of their own, drawn from a sequence, and positions that no two of them
share. `TestsSound` is the invariant; with it, no hidden test is created twice, and the revision counter of
`Revisions` is exact.
-/

namespace AlgorithmTrainer

open Interaction Interaction.Pool Transition Relational

/-- The hidden tests that a reply shows. -/
def testRows : (q : BackendRequest) → q.Reply → List ProblemTestRow
  | .execute (.selectTests _ _), .tuples rows => rows
  | .execute (.insertTest ..), .tuples rows => rows
  | .execute (.updateTest ..), .tuples rows => rows
  | _, _ => []

/-- The hidden test that an update changed, and the revision it named. -/
def testUpdated : (q : BackendRequest) → q.Reply → Option (Int × Int)
  | .execute (.updateTest _ _ _ _ id _ revision), .tuples (_ :: _) => some (id, revision)
  | _, _ => none

/-- The problem whose hidden tests a request is addressed to. -/
def testProblem : BackendRequest → Option String
  | .execute (.insertTest problemId ..) => some problemId
  | .execute (.updateTest _ _ _ _ _ problemId _) => some problemId
  | .execute (.deleteTest _ problemId) => some problemId
  | .execute (.deleteProblem id) => some id
  | _ => none

/-! ## What a call does -/

section effects
variable {P : Platform} {q : BackendRequest} {c : Choice} {db : Database} {r : q.Reply}
  {t : Table ProblemTestRow}

theorem testWritten_of_created {id : Int} (h : testCreated q r = some id) :
    testWritten q r = some id := by
  unfold testCreated at h
  split at h
  · exact h
  · cases h

/-- A hidden test after a call was created by it, or raised, or was there as it is. -/
theorem TestEffect.next (h : TestEffect db q r t) {row : ProblemTestRow} (hrow : row ∈ t) :
    testCreated q r = some row.id ∨
      ∃ old ∈ db.problemTests, old.id = row.id ∧ (old.revision < row.revision ∨
        (row.revision = old.revision ∧ testWritten q r ≠ some row.id)) := by
  cases h with
  | kept h =>
      refine Or.inr ⟨row, hrow, rfl, Or.inr ⟨rfl, ?_⟩⟩
      rw [h]
      exact fun he => (by cases he)
  | @created _ _ _ _ _ new _ hnew _ =>
      rcases Table.mem_insert.mp hrow with hold | ⟨rfl, -⟩
      · refine Or.inr ⟨row, hold, rfl, Or.inr ⟨rfl, fun he => ?_⟩⟩
        exact hnew row hold (Option.some.inj he).symm
      · exact Or.inl rfl
  | @updated _ _ _ _ id revision _ found hfound hat _ =>
      obtain ⟨old, hold, rfl⟩ := (Table.mem_update _).mp hrow
      split
      · exact Or.inr ⟨old, hold, rfl, Or.inl (Int.lt_succ _)⟩
      · rename_i hnot
        refine Or.inr ⟨old, hold, rfl, Or.inr ⟨rfl, fun he => hnot ?_⟩⟩
        have hid : found.id = old.id := (testAt_iff.mp hat).1.trans (Option.some.inj he)
        rw [Table.eq_of_key hold hfound hid.symm]
        exact hat
  | @removed old hold =>
      obtain ⟨hrow, hkept⟩ := Table.mem_delete.mp hrow
      refine Or.inr ⟨row, hrow, rfl, Or.inr ⟨rfl, fun he => ?_⟩⟩
      have hid : old.id = row.id := Option.some.inj he
      obtain rfl := Table.eq_of_key hold hrow hid
      exact absurd hkept (by simp [testOf])
  | cascaded =>
      exact Or.inr ⟨row, (Table.mem_delete.mp hrow).1, rfl, Or.inr ⟨rfl, fun he => (by cases he)⟩⟩

/-- An update that took effect found the revision it named. -/
theorem TestEffect.found (h : TestEffect db q r t) {id revision : Int}
    (hu : testUpdated q r = some (id, revision)) :
    ∃ row ∈ db.problemTests, row.id = id ∧ row.revision = revision := by
  cases h with
  | kept h =>
      unfold testUpdated at hu
      split at hu
      · cases h
      · cases hu
  | created => cases hu
  | @updated _ _ _ _ _ _ _ row hrow hat _ =>
      cases hu
      obtain ⟨hid, -, hrevision⟩ := testAt_iff.mp hat
      exact ⟨row, hrow, hid, hrevision⟩
  | removed => cases hu
  | cascaded => cases hu

/-- A call leaves the hidden tests of every problem alone that it is not addressed to. -/
theorem TestEffect.own (h : TestEffect db q r t) {row : ProblemTestRow}
    (hrow : testProblem q ≠ some row.problemId) : row ∈ t ↔ row ∈ db.problemTests := by
  cases h with
  | kept => exact Iff.rfl
  | created hnew _ _ =>
      refine ⟨fun h => ?_, Table.mem_insert_of_mem⟩
      rcases Table.mem_insert.mp h with h | ⟨rfl, -⟩
      · exact h
      · exact absurd (congrArg some (congrArg ProblemTestRow.problemId hnew).symm) hrow
  | @updated _ _ problemId _ id revision _ found hfound hat _ =>
      have hother : ∀ x, testAt id problemId revision x = true → x.problemId ≠ row.problemId :=
        fun x hx he => hrow (congrArg some ((testAt_iff.mp hx).2.1.symm.trans he))
      refine Table.mem_update_unselected _ ?_ fun x _ hx he => hother x hx (he ▸ rfl)
      exact Bool.eq_false_iff.mpr fun hx => hother row hx rfl
  | @removed old hold =>
      refine ⟨fun h => (Table.mem_delete.mp h).1, fun h => Table.mem_delete.mpr ⟨h, ?_⟩⟩
      exact Bool.eq_false_iff.mpr fun hx => hrow (congrArg some (testOf_iff.mp hx).2.symm)
  | @cascaded id _ =>
      refine ⟨fun h => (Table.mem_delete.mp h).1, fun h => Table.mem_delete.mpr ⟨h, ?_⟩⟩
      exact Bool.eq_false_iff.mpr fun hx => hrow (congrArg some (beq_iff_eq.mp hx).symm)

/-- A call that was rejected leaves the hidden tests as they are. -/
theorem TestEffect.eq_of_none (h : TestEffect db q r t) (hnone : testWritten q r = none)
    (hq : ∀ id, q ≠ .execute (.deleteProblem id)) : t = db.problemTests := by
  cases h with
  | kept => rfl
  | created => cases hnone
  | updated => cases hnone
  | removed => cases hnone
  | @cascaded id _ => exact absurd rfl (hq id)

/-- A write returns the row it wrote. -/
theorem TestEffect.shown (h : TestEffect db q r t) {row : ProblemTestRow}
    (hrow : row ∈ testRows q r) (hw : testWritten q r ≠ none) : row ∈ t := by
  cases h with
  | kept h => exact absurd h hw
  | @created _ _ _ _ _ new _ hnew _ =>
      obtain rfl := List.mem_singleton.mp hrow
      refine Table.mem_insert.mpr (Or.inr ⟨rfl, fun hkey => ?_⟩)
      obtain ⟨x, hx, he⟩ := List.mem_map.mp hkey
      exact hnew x hx he
  | @updated _ _ _ _ _ _ _ found hfound hat _ =>
      obtain rfl := List.mem_singleton.mp hrow
      exact Table.mem_update_of_pos hfound hat _
  | removed => cases hrow
  | cascaded => cases hrow

/-- An update that took effect changed one hidden test, of the problem it is addressed to. -/
theorem TestEffect.raised {input expectedOutput problemId : String} {position id revision : Int}
    {enabled : Bool} {r : Result ProblemTestRow}
    (h : TestEffect db
      (.execute (.updateTest input expectedOutput position enabled id problemId revision)) r t)
    (hw : testWritten (.execute (.updateTest input expectedOutput position enabled id problemId
      revision)) r ≠ none) :
    ∃ old ∈ db.problemTests, testAt id problemId revision old = true ∧
      r = .tuples [old.edited input expectedOutput position enabled] ∧
      old.edited input expectedOutput position enabled ∈ t ∧
      ∀ row, row.id ≠ id → (row ∈ t ↔ row ∈ db.problemTests) := by
  cases h with
  | kept h => exact absurd h hw
  | @updated _ _ _ _ _ _ _ old hold hat _ =>
      refine ⟨old, hold, hat, rfl, Table.mem_update_of_pos hold hat _, fun row hid => ?_⟩
      have hother : ∀ x, testAt id problemId revision x = true → x.id ≠ row.id :=
        fun x hx he => hid (he.symm.trans (testAt_iff.mp hx).1)
      refine Table.mem_update_unselected _ ?_ fun x _ hx he => hother x hx (he ▸ rfl)
      exact Bool.eq_false_iff.mpr fun hx => hother row hx rfl

/-- A reply shows hidden tests as they are after the call. -/
theorem serve_testRows {row : ProblemTestRow} (h : row ∈ testRows q (serve P q c db).1) :
    row ∈ (serve P q c db).2.problemTests := by
  match q with
  | .randomToken | .passwordHash _ | .judge _ | .executeLocked _ _ => cases h
  | .execute s =>
      cases s with
      | selectTests problemId onlyEnabled =>
          have hsame := @serve_sameCatalog P (.execute (.selectTests problemId onlyEnabled)) c db
            fun s' he => by cases he; rfl
          rw [hsame.problemTests]
          rcases serveStatement_cases (P := P) (.selectTests problemId onlyEnabled) c db with
            ⟨-, hr⟩ | ⟨-, hr⟩
          · rw [serve_execute, hr] at h
            cases h
          · rw [serve_execute, hr] at h
            exact (Table.mem_select.mp (mem_orderBy.mp h)).1
      | insertTest problemId input expectedOutput position enabled =>
          refine serve_tests.shown h fun hnone => ?_
          match hreply : (serve P (.execute (.insertTest problemId input expectedOutput position
            enabled)) c db).1 with
          | .tuples (_ :: _) => rw [hreply] at hnone; cases hnone
          | .tuples [] | .none | .failed _ _ | .command => rw [hreply] at h; cases h
      | updateTest input expectedOutput position enabled id problemId revision =>
          refine serve_tests.shown h fun hnone => ?_
          match hreply : (serve P (.execute (.updateTest input expectedOutput position enabled id
            problemId revision)) c db).1 with
          | .tuples (_ :: _) => rw [hreply] at hnone; cases hnone
          | .tuples [] | .none | .failed _ _ | .command => rw [hreply] at h; cases h
      | _ => cases h

end effects

/-! ## The invariant -/

/-- The ids of hidden tests are below the sequence they are drawn from, and no two hidden tests of a
    problem are at one position. -/
structure TestsSound (db : Database) : Prop where
  ids : ∀ t ∈ db.problemTests, t.id < db.sequences.problemTests
  positions : ∀ t ∈ db.problemTests, ∀ t' ∈ db.problemTests, t.problemId = t'.problemId →
    t.position = t'.position → t = t'

theorem TestsSound.of_same {db db' : Database} (hdb : TestsSound db) (h : SameCatalog db db') :
    TestsSound db' := by
  constructor
  · rw [h.problemTests, h.nextTest]
    exact hdb.ids
  · rw [h.problemTests]
    exact hdb.positions

/-- Whoever is in the table after a call was created by it, or stood in its place before it. -/
theorem TestEffect.origin {q : BackendRequest} {db : Database} {r : q.Reply}
    {t : Table ProblemTestRow} (h : TestEffect db q r t) {row : ProblemTestRow} (hrow : row ∈ t) :
    testCreated q r = some row.id ∨ ∃ old ∈ db.problemTests, old.id = row.id := by
  rcases h.next hrow with hcreated | ⟨old, hold, hid, -⟩
  · exact Or.inl hcreated
  · exact Or.inr ⟨old, hold, hid⟩

/-- A call keeps the positions of a problem's hidden tests apart. -/
theorem TestEffect.positions {q : BackendRequest} {db : Database} {r : q.Reply}
    {t : Table ProblemTestRow} (h : TestEffect db q r t) (hdb : TestsSound db) :
    ∀ x ∈ t, ∀ y ∈ t, x.problemId = y.problemId → x.position = y.position → x = y := by
  have hsub : (∀ x ∈ t, x ∈ db.problemTests) →
      ∀ x ∈ t, ∀ y ∈ t, x.problemId = y.problemId → x.position = y.position → x = y :=
    fun hsub x hx y hy => hdb.positions x (hsub x hx) y (hsub y hy)
  cases h with
  | kept => exact hsub fun _ h => h
  | removed _ => exact hsub fun _ h => (Table.mem_delete.mp h).1
  | cascaded => exact hsub fun _ h => (Table.mem_delete.mp h).1
  -- the insert was refused if the position was taken
  | @created problemId _ _ position _ new hnew _ hfree =>
      have hfree' : ∀ x ∈ db.problemTests, x.problemId = new.problemId →
          x.position ≠ new.position := by
        rw [hnew]
        exact hfree
      intro x hx y hy hproblem hposition
      rcases Table.mem_insert.mp hx with hx | ⟨hx, -⟩ <;>
        rcases Table.mem_insert.mp hy with hy | ⟨hy, -⟩
      · exact hdb.positions x hx y hy hproblem hposition
      · exact absurd (hy ▸ hposition) (hfree' x hx (hy ▸ hproblem))
      · exact absurd (hx ▸ hposition).symm (hfree' y hy (hx ▸ hproblem).symm)
      · rw [hx, hy]
  | @updated input expectedOutput problemId position id revision enabled found hfound hat hfree =>
      -- the position is free but for the test that moves there
      have hone : ∀ x ∈ db.problemTests, ¬ testAt id problemId revision x = true →
          x.problemId = problemId → x.position ≠ position := by
        intro x hx hnot
        refine hfree x hx fun he => hnot ?_
        rw [Table.eq_of_key hx hfound (he.trans (testAt_iff.mp hat).1.symm)]
        exact hat
      intro x hx y hy hproblem hposition
      obtain ⟨a, ha, rfl⟩ := (Table.mem_update _).mp hx
      obtain ⟨b, hb, rfl⟩ := (Table.mem_update _).mp hy
      by_cases hxa : testAt id problemId revision a = true <;>
        by_cases hyb : testAt id problemId revision b = true
      · have hab : a.id = b.id := (testAt_iff.mp hxa).1.trans (testAt_iff.mp hyb).1.symm
        rw [Table.eq_of_key ha hb hab]
      · rw [if_pos hxa, if_neg hyb] at hproblem hposition
        exact absurd hposition.symm
          (hone b hb hyb (hproblem.symm.trans (testAt_iff.mp hxa).2.1))
      · rw [if_neg hxa, if_pos hyb] at hproblem hposition
        exact absurd hposition (hone a ha hxa (hproblem.trans (testAt_iff.mp hyb).2.1))
      · rw [if_neg hxa, if_neg hyb] at hproblem hposition ⊢
        exact hdb.positions a ha b hb hproblem hposition

/-- **Every call keeps the invariant.** -/
theorem TestsSound.serve {P : Platform} {q : BackendRequest} {c : Choice} {db : Database}
    (hdb : TestsSound db) : TestsSound (serve P q c db).2 := by
  obtain ⟨hnext, hdrawn⟩ := @serve_nextTest P q c db
  have heffect := @serve_tests P q c db
  refine ⟨fun t ht => ?_, heffect.positions hdb⟩
  rcases heffect.origin ht with hcreated | ⟨old, hold, hid⟩
  · obtain ⟨hid, hraised⟩ := hdrawn t.id hcreated
    omega
  · have := hdb.ids old hold
    omega

theorem TestsSound.initial (now : Timestamp) : TestsSound (.initial now) :=
  ⟨fun t ht => absurd ht (Table.not_mem_empty t), fun t ht => absurd ht (Table.not_mem_empty t)⟩

/-- The judge's order of hidden tests is strict. -/
theorem TestsSound.strict {db : Database} (hdb : TestsSound db) (problemId : String)
    (onlyEnabled : Bool) :
    (orderBy byPosition (db.problemTests.select fun t =>
      t.problemId == problemId && (!onlyEnabled || t.enabled))).Pairwise
        fun a b => a.position < b.position := by
  have hsorted := @pairwise_orderBy ProblemTestRow byPosition
    (fun a b => by simp only [byPosition]; grind) (fun a b c => by simp only [byPosition]; grind)
    (db.problemTests.select fun t => t.problemId == problemId && (!onlyEnabled || t.enabled))
  have hnodup : (orderBy byPosition (db.problemTests.select fun t =>
      t.problemId == problemId && (!onlyEnabled || t.enabled))).Nodup :=
    (List.perm_insertionSort _ _).nodup_iff.mpr ((List.Nodup.of_map _ db.problemTests.nodup).filter _)
  refine (hsorted.and hnodup).imp_of_mem ?_
  intro a b ha hb hab
  obtain ⟨ha, haof⟩ := Table.mem_select.mp (mem_orderBy.mp ha)
  obtain ⟨hb, hbof⟩ := Table.mem_select.mp (mem_orderBy.mp hb)
  have hproblem : a.problemId = b.problemId := by grind
  have hposition : a.position ≠ b.position := fun he => hab.2 (hdb.positions a ha b hb hproblem he)
  have hle := hab.1
  simp only [byPosition] at hle
  grind

/-! ## Runs -/

section runs
variable {ι : Type} [DecidableEq ι] {P : Platform}

/-- The event shows somebody a hidden test at this revision. -/
def ShowsTest : CatalogEvent ι → Int → Int → Prop
  | .call _ _ x, id, revision =>
      ∃ row ∈ testRows x.request x.reply, row.id = id ∧ row.revision = revision
  | .control _, _, _ => False

/-- The event commits a `create_test`, an `update_test` or a `remove_test` of this hidden test. -/
def WritesTest : CatalogEvent ι → Int → Prop
  | .call _ _ x, id => testWritten x.request x.reply = some id
  | .control _, _ => False

/-- The event commits a `create_test` of this hidden test. -/
def CreatesTest : CatalogEvent ι → Int → Prop
  | .call _ _ x, id => testCreated x.request x.reply = some id
  | .control _, _ => False

/-- The event commits an `update_test` of this hidden test that named this revision. -/
def UpdatesTest : CatalogEvent ι → Int → Int → Prop
  | .call _ _ x, id, revision => testUpdated x.request x.reply = some (id, revision)
  | .control _, _, _ => False

/-- Hidden tests and their revisions, in the system the catalog is edited in. -/
def testRevisions (ι : Type) [DecidableEq ι] (P : Platform) :
    Revisions Int (CatalogStep (ι := ι) P) where
  has p id revision := ∃ row ∈ p.shared.problemTests, row.id = id ∧ row.revision = revision
  shows := ShowsTest
  writes := WritesTest
  creates := CreatesTest
  expects := UpdatesTest
  has_unique := by
    rintro p id _ _ ⟨row, hrow, hid, rfl⟩ ⟨row', hrow', hid', rfl⟩
    rw [Table.eq_of_key hrow hrow' (hid.trans hid'.symm)]
  has_of_shows := by
    rintro p e p' id revision hstep hshows
    cases hstep with
    | call _ =>
        obtain ⟨row, hrow, hat⟩ := hshows
        exact ⟨row, serve_testRows hrow, hat⟩
    | control _ => exact hshows.elim
  has_of_expects := by
    rintro p e p' id revision hstep hexpects
    cases hstep with
    | call _ => exact serve_tests.found hexpects
    | control _ => exact hexpects.elim
  writes_of_creates := by
    intro e id h
    cases e with
    | call i c x => exact testWritten_of_created h
    | control b => exact h
  next := by
    rintro p e p' id _ hstep ⟨row, hrow, rfl, rfl⟩
    cases hstep with
    | call _ =>
        rcases serve_tests.next hrow with hcreated | ⟨old, hold, hid, hgrown⟩
        · exact Or.inl hcreated
        · exact Or.inr ⟨old.revision, ⟨old, hold, hid, rfl⟩, hgrown⟩
    | control h =>
        rw [(catalogControl_sameCatalog h).problemTests] at hrow
        exact Or.inr ⟨row.revision, ⟨row, hrow, rfl, rfl⟩, Or.inr ⟨rfl, fun h => h⟩⟩

variable {db₀ : Database} {h : List (CatalogEvent ι)} {p p' : CatalogPool ι} {i : ι} {c : Choice}
  {x : Exchange Backend}

theorem TestsSound.step {e : CatalogEvent ι} (hp : TestsSound p.shared)
    (hstep : CatalogStep P p e p') : TestsSound p'.shared := by
  cases hstep with
  | call _ => exact hp.serve
  | control hcontrol => exact hp.of_same (catalogControl_sameCatalog hcontrol)

/-- **The positions of a problem's hidden tests are distinct in every reachable state.** -/
theorem TestsSound.run {p₀ : CatalogPool ι} (hp : TestsSound p₀.shared)
    (hrun : Run (CatalogStep P) p₀ h p) : TestsSound p.shared := by
  induction hrun with
  | start => exact hp
  | next _ _ hs ih => exact ih.step hs

/-- An id that was drawn is not drawn again. -/
theorem not_created {p₀ : CatalogPool ι} {id : Int} (hrun : Run (CatalogStep P) p₀ h p)
    (hid : id < p₀.shared.sequences.problemTests) :
    id < p.shared.sequences.problemTests ∧ ∀ e ∈ h, ¬ CreatesTest e id := by
  induction hrun with
  | start => exact ⟨hid, fun e he => absurd he List.not_mem_nil⟩
  | @next h p e p' _ _ hs ih =>
      obtain ⟨hlt, hnew⟩ := ih
      cases hs with
      | @call i q k c _ =>
          obtain ⟨hnext, hdrawn⟩ := @serve_nextTest P q c p.shared
          refine ⟨Int.lt_of_lt_of_le hlt hnext, fun e he => ?_⟩
          rcases List.mem_cons.mp he with rfl | he
          · intro hcreated
            have := (hdrawn id hcreated).1
            omega
          · exact hnew e he
      | control hcontrol =>
          have hsame := catalogControl_sameCatalog hcontrol
          refine ⟨by rw [hsame.nextTest]; exact hlt, fun e he => ?_⟩
          rcases List.mem_cons.mp he with rfl | he
          · exact fun h => h
          · exact hnew e he

/-- Between a step that showed a hidden test and an update that named the revision shown, nobody wrote the
    hidden test. -/
theorem test_unwritten {id revision : Int} {h₁ h₂ : List (CatalogEvent ι)}
    {e o : CatalogEvent ι} (hdb : TestsSound db₀)
    (hrun : Run (CatalogStep P) (idleCatalog ι db₀) (e :: h₁ ++ o :: h₂) p)
    (ho : ShowsTest o id revision) (he : UpdatesTest e id revision) :
    ∀ x ∈ h₁, ¬ WritesTest x id := by
  refine ((testRevisions ι P).fresh_iff hrun ho he).mpr ?_
  obtain ⟨p₁, hbefore, hafter⟩ := Run.split hrun
  have hstart : TestsSound (idleCatalog ι db₀).shared := hdb
  have hsound : TestsSound p₁.shared := hstart.run hbefore
  cases hbefore with
  | next _ _ hshown =>
      obtain ⟨row, hrow, rfl, -⟩ := (testRevisions ι P).has_of_shows hshown ho
      have hnew := (not_created hafter (hsound.ids row hrow)).2
      exact fun x hx => hnew x (List.mem_cons_of_mem _ hx)

end runs

/-! ## Calls on hidden tests -/

/-- The problem that a call on hidden tests is addressed to. -/
def CatalogCall.testsOf : CatalogCall → Option String
  | .createTest problemId _ => some problemId
  | .updateTest problemId _ => some problemId
  | .removeTest problemId _ => some problemId
  | _ => none

/-- The call on hidden tests was rejected: it returned an error, or found nothing to remove. -/
def CatalogResult.rejected : CatalogResult → Bool
  | .testWritten (.error _) => true
  | .removed (.error _) => true
  | .removed (.ok false) => true
  | _ => false

/-- A call on hidden tests writes no other table, and draws ids of hidden tests only. -/
theorem serve_testsOnly {P : Platform} {s : Statement} {c : Choice} {db : Database}
    (hs : s.setsTests = true) : ∃ t n, (serve P (.execute s) c db).2 =
      { db with
        problemTests := t
        sequences := { db.sequences with problemTests := n } } := by
  rw [serve_execute]
  rcases serveStatement_cases (P := P) s c db with ⟨-, hr⟩ | ⟨-, hr⟩
  · rw [hr]
    exact ⟨_, _, rfl⟩
  · rw [hr]
    cases s with
    | insertTest _ _ _ _ _ | updateTest _ _ _ _ _ _ _ =>
        simp only [Statement.exec]
        split
        · exact ⟨_, _, rfl⟩
        · split <;> exact ⟨_, _, rfl⟩
    | deleteTest _ _ => exact ⟨_, _, rfl⟩
    | _ => cases hs

/-- A rejected call on hidden tests changes no table. -/
theorem serve_rejected {P : Platform} {s : Statement} {c : Choice} {db : Database}
    (hs : s.setsTests = true)
    (hnone : testWritten (.execute s) (serve P (.execute s) c db).1 = none) :
    ∃ n, (serve P (.execute s) c db).2 =
      { db with sequences := { db.sequences with problemTests := n } } := by
  obtain ⟨t, n, hserve⟩ := @serve_testsOnly P s c db hs
  have heffect := @serve_tests P (.execute s) c db
  have ht := heffect.eq_of_none hnone fun id he => by cases he; cases hs
  rw [hserve] at ht
  exact ⟨n, by rw [hserve, ← ht]⟩

section steps
variable {ι : Type} [DecidableEq ι] {P : Platform} {p p' : CatalogPool ι} {i : ι} {c : Choice}
  {x : Exchange Backend} {call : CatalogCall} {problemId : String} {test : ProblemTestCase}

/-- A call on hidden tests is one statement, addressed to its problem; where it is rejected, no table has
    changed. -/
theorem test_step (hcall : p.thread i = call.program) (hof : call.testsOf = some problemId)
    (hstep : CatalogStep P p (.call i c x) p') :
    (∀ row, row.problemId ≠ text problemId →
        (row ∈ p'.shared.problemTests ↔ row ∈ p.shared.problemTests)) ∧
      ∃ result, p'.thread i = .ret result ∧ (result.rejected = true → ∃ n, p'.shared =
        { p.shared with sequences := { p.shared.sequences with problemTests := n } }) := by
  cases hstep with
  | call h =>
      rw [hcall] at h
      cases call with
      | createTest _ test =>
          cases hof
          cases h
          refine ⟨fun row hrow => serve_tests.own fun he => hrow (Option.some.inj he).symm, ?_⟩
          dsimp only
          rw [Function.update_self]
          match hreply : (serve P (.execute (.insertTest (text problemId) (text test.input)
            (text test.expectedOutput) test.position test.enabled)) c p.shared).1 with
          | .tuples [row] => exact ⟨_, rfl, fun h => (by cases h)⟩
          -- an insert does not return two rows
          | .tuples (_ :: _ :: _) =>
              have heffect := @serve_tests P (.execute (.insertTest (text problemId)
                (text test.input) (text test.expectedOutput) test.position test.enabled)) c p.shared
              rw [hreply] at heffect
              revert heffect
              generalize (serve P (.execute (.insertTest (text problemId) (text test.input)
                (text test.expectedOutput) test.position test.enabled)) c
                p.shared).2.problemTests = t
              intro heffect
              cases heffect with
              | kept h => cases h
          | .tuples [] | .none | .failed _ _ | .command =>
              exact ⟨_, rfl, fun _ => serve_rejected rfl (by rw [hreply]; rfl)⟩
      | updateTest _ test =>
          cases hof
          cases h
          refine ⟨fun row hrow => serve_tests.own fun he => hrow (Option.some.inj he).symm, ?_⟩
          dsimp only
          rw [Function.update_self]
          match hreply : (serve P (.execute (.updateTest (text test.input)
            (text test.expectedOutput) test.position test.enabled test.id (text problemId)
            test.revision)) c p.shared).1 with
          | .tuples (row :: _) => exact ⟨_, rfl, fun h => (by cases h)⟩
          | .tuples [] | .none | .failed _ _ | .command =>
              exact ⟨_, rfl, fun _ => serve_rejected rfl (by rw [hreply]; rfl)⟩
      | removeTest _ testId =>
          cases hof
          cases h
          refine ⟨fun row hrow => serve_tests.own fun he => hrow (Option.some.inj he).symm, ?_⟩
          dsimp only
          rw [Function.update_self]
          match hreply : (serve P (.execute (.deleteTest testId (text problemId))) c p.shared).1 with
          | .tuples (row :: _) => exact ⟨_, rfl, fun h => (by cases h)⟩
          | .tuples [] | .none | .failed _ _ | .command =>
              exact ⟨_, rfl, fun _ => serve_rejected rfl (by rw [hreply]; rfl)⟩
      | _ => cases hof

/-- An `update_test` that succeeds raises the revision it named, by one, and touches no other hidden
    test. -/
theorem updateTest_step (hcall : p.thread i = (CatalogCall.updateTest problemId test).program)
    (hstep : CatalogStep P p (.call i c x) p') {updated : ProblemTestCase}
    (hok : p'.thread i = .ret (.testWritten (.ok updated))) :
    UpdatesTest (.call i c x : CatalogEvent ι) test.id test.revision ∧
      updated.revision = test.revision + 1 ∧
      (∃ old ∈ p.shared.problemTests, testAt test.id (text problemId) test.revision old = true ∧
        old.edited (text test.input) (text test.expectedOutput) test.position test.enabled
          ∈ p'.shared.problemTests) ∧
      ∀ row, row.id ≠ test.id → (row ∈ p'.shared.problemTests ↔ row ∈ p.shared.problemTests) := by
  cases hstep with
  | call h =>
      rw [hcall] at h
      cases h
      dsimp only at hok ⊢
      rw [Function.update_self] at hok
      have heffect := @serve_tests P (.execute (.updateTest (text test.input)
        (text test.expectedOutput) test.position test.enabled test.id (text problemId)
        test.revision)) c p.shared
      revert hok heffect
      generalize (serve P (.execute (.updateTest (text test.input) (text test.expectedOutput)
        test.position test.enabled test.id (text problemId) test.revision)) c p.shared).1 = r
      intro hok heffect
      match r, hok with
      | .tuples (row :: rows), hok =>
          obtain ⟨old, hold, hat, hr, hnew, hothers⟩ := heffect.raised fun he => (by cases he)
          obtain ⟨-, -, hrevision⟩ := testAt_iff.mp hat
          cases hr
          cases hok
          exact ⟨rfl, congrArg (· + 1) hrevision, ⟨old, hold, hat, hnew⟩, hothers⟩
      | .tuples [], hok => cases hok
      | .none, hok => cases hok
      | .failed _ _, hok => cases hok
      | .command, hok => cases hok

end steps

/-! ### Every call, in every run -/

section runs
variable {ι : Type} [DecidableEq ι] {P : Platform} {db₀ : Database} {h : List (CatalogEvent ι)}
  {p p' : CatalogPool ι} {i : ι} {c : Choice} {x : Exchange Backend} {call : CatalogCall}
  {problemId : String}

/-- What holds of a call on the hidden tests of a problem that follows the history `h` and leads from `p`
    to `p'`. -/
structure TestCallSound (h : List (CatalogEvent ι)) (p p' : CatalogPool ι) (i : ι)
    (call : CatalogCall) (problemId : String) : Prop where
  /-- The hidden tests of other problems are as they were. -/
  own : ∀ row, row.problemId ≠ text problemId →
    (row ∈ p'.shared.problemTests ↔ row ∈ p.shared.problemTests)
  /-- A rejected call leaves every table as it was. -/
  rejected : ∀ result, p'.thread i = .ret result → result.rejected = true → ∃ n, p'.shared =
    { p.shared with sequences := { p.shared.sequences with problemTests := n } }
  /-- A success finds the hidden test at the revision it names, raises the revision by one, and changes no
      other hidden test. -/
  raised : ∀ test updated, call = .updateTest problemId test →
    p'.thread i = .ret (.testWritten (.ok updated)) →
    updated.revision = test.revision + 1 ∧
      (∃ old ∈ p.shared.problemTests, testAt test.id (text problemId) test.revision old = true ∧
        old.edited (text test.input) (text test.expectedOutput) test.position test.enabled
          ∈ p'.shared.problemTests) ∧
      ∀ row, row.id ≠ test.id → (row ∈ p'.shared.problemTests ↔ row ∈ p.shared.problemTests)
  /-- No other write of the hidden test has succeeded since the revision was shown that a success names. -/
  fresh : ∀ test updated, call = .updateTest problemId test →
    p'.thread i = .ret (.testWritten (.ok updated)) → ∀ h₁ o h₂, h = h₁ ++ o :: h₂ →
    ShowsTest o test.id test.revision → ∀ e ∈ h₁, ¬ WritesTest e test.id

theorem testCallSound (hdb : TestsSound db₀) (hrun : Run (CatalogStep P) (idleCatalog ι db₀) h p)
    (hcall : p.thread i = call.program) (hof : call.testsOf = some problemId)
    (hstep : CatalogStep P p (.call i c x) p') : TestCallSound h p p' i call problemId := by
  obtain ⟨hown, result, hresult, hrejected⟩ := test_step hcall hof hstep
  constructor
  · exact hown
  · intro result' hresult' hr
    rw [hresult] at hresult'
    cases hresult'
    exact hrejected hr
  · rintro test updated rfl hok
    exact (updateTest_step hcall hstep hok).2
  · rintro test updated rfl hok h₁ o h₂ rfl hshown
    exact test_unwritten hdb (hrun.next hstep) hshown (updateTest_step hcall hstep hok).1

/-- **Concurrent edits of hidden tests are sound.** In every run, the positions of a problem's hidden tests
    are pairwise distinct, the order the judge reads them in is strict, and every call on hidden
    tests meets `TestCallSound`. -/
theorem hidden_test_edits (hdb : TestsSound db₀)
    (hrun : Run (CatalogStep P) (idleCatalog ι db₀) h p) :
    (∀ t ∈ p.shared.problemTests, ∀ t' ∈ p.shared.problemTests, t.problemId = t'.problemId →
        t.position = t'.position → t = t') ∧
      (∀ problemId onlyEnabled, (orderBy byPosition (p.shared.problemTests.select fun t =>
        t.problemId == problemId && (!onlyEnabled || t.enabled))).Pairwise
          fun a b => a.position < b.position) ∧
      ∀ i c x p' call problemId, p.thread i = call.program → call.testsOf = some problemId →
        CatalogStep P p (.call i c x) p' → TestCallSound h p p' i call problemId := by
  have hstart : TestsSound (idleCatalog ι db₀).shared := hdb
  have hsound : TestsSound p.shared := hstart.run hrun
  exact ⟨hsound.positions, hsound.strict, fun i c x p' call problemId hcall hof hstep =>
    testCallSound hdb hrun hcall hof hstep⟩

end runs

/-- A hidden test as the first administrator creates it, and as it is read back. -/
def smallTest : ProblemTestCase :=
  { input := "1 2", expectedOutput := "3", id := 1, position := 1, revision := 1 }

/-- An administrator creates a hidden test, another loads the problem, and is about to save the test. -/
def editTest : List EditMove :=
  [.inr (.issue true (.createTest "sum" smallTest)), .inl (true, .calm)] ++ findSum false ++
    [.inr (.issue false (.updateTest "sum" { smallTest with expectedOutput := "4" }))]

/-- The administrator who loaded the problem saves the hidden test. -/
theorem hidden_test_edits_saved : ∃ (h : List (CatalogEvent Bool)) (p p' : CatalogPool Bool)
    (updated : ProblemTestCase),
    Run (CatalogStep .plain) (idleCatalog Bool oneProblem) h p ∧
    p'.thread false = .ret (.testWritten (.ok updated)) ∧
    TestCallSound h p p' false
      (.updateTest "sum" { smallTest with expectedOutput := "4" }) "sum" := by
  have hplayed : (playedEdit editTest).isSome = true := by decide
  have hrun := run_of_script .start (Option.some_get hplayed).symm
  have hdb : TestsSound oneProblem := ⟨(TestsSound.initial 0).ids, (TestsSound.initial 0).positions⟩
  have hstep : CatalogStep .plain ((playedEdit editTest).get hplayed).2 (.call false .calm _) _ :=
    .call rfl
  exact ⟨_, _, _, _, hrun, rfl,
    (hidden_test_edits hdb hrun).2.2 false .calm _ _ _ "sum" rfl rfl hstep⟩

end AlgorithmTrainer
