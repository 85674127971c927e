import AlgorithmTrainer.Server.Http
import AlgorithmTrainer.Submission.Lifecycle

/-!
# `Submission.Carriage` — the program that is judged

A submission is accepted as texts, inserted through `c_str()` parameters, and read back by `claim_next` and
`find`. `create_carries_iff` says when what is read back is what was submitted: exactly if no text contains
U+0000.
-/

namespace AlgorithmTrainer

open Interaction Transition Relational PostgreSQLSubmissionRepository

/-! ## Texts -/

theorem nul_not_mem_text (s : String) : '\x00' ∉ (text s).toList := by
  rw [text, cStr, String.toList_ofList]
  exact fun h => absurd (List.mem_takeWhile_imp h) (by decide)

/-- A text arrives as it is exactly if it has no U+0000. -/
theorem text_eq_iff {s : String} : text s = s ↔ '\x00' ∉ s.toList := by
  constructor
  · intro h
    rw [← h]
    exact nul_not_mem_text s
  · exact cStr_of_not_mem

/-! ## Records -/

/-- The record has the submission's problem, language, source code and user. -/
structure Carries (record : SubmissionRecord) (request : SubmissionRequest) : Prop where
  problemId : record.problemId = request.problemId
  language : record.language = request.language
  sourceCode : record.sourceCode = request.code
  userId : record.userId = request.userId

section records
variable {P : Platform} {row : SubmissionRow} {r : SubmissionRecord}

theorem optionalRecord_some {rows : List SubmissionRow} (h : optionalRecord P rows = .ok (some r)) :
    ∃ row ∈ rows, record P row = .ok r := by
  match rows with
  | [] => cases h
  | row :: rows =>
      refine ⟨row, List.mem_cons_self, ?_⟩
      match hrow : record P row with
      | .ok r' =>
          simp only [optionalRecord, hrow, Except.map, Except.ok.injEq, Option.some.injEq] at h
          rw [h]
      | .error e =>
          simp only [optionalRecord, hrow, Except.map] at h
          cases h

/-- A record of the same submission carries what the submission's row carries. -/
theorem Carries.of_row {request : SubmissionRequest} {row₀ : SubmissionRow}
    (hproblem : row₀.problemId = request.problemId) (hlanguage : row₀.language = request.language)
    (hsource : row₀.sourceCode = request.code) (huser : row₀.userId = request.userId)
    (hsame : SameSubmission row₀ row) (h : record P row = .ok r) : Carries r request := by
  obtain ⟨-, hp, hl, hs, hu⟩ := record_columns h
  constructor
  · rw [hp, hsame.problemId, hproblem]
  · rw [hl, hsame.language, hlanguage]
  · rw [hs, hsame.sourceCode, hsource]
  · rw [hu, hsame.userId, huser]

end records

/-! ## What the calls return -/

section calls
variable {P : Platform} {limits : PostgreSQLRepositoryLimits} {c : Choice} {db : Database}
  {r : SubmissionRecord}

/-- The row that is inserted for a submission. -/
def queuedRow (db : Database) (problemId language sourceCode : String) (userId : Option Int) :
    SubmissionRow :=
  ⟨db.sequences.submissions, problemId, language, sourceCode, "queued", none, db.clock, none, userId,
    none, none⟩

/-- An insertion that returns a row has inserted it. -/
theorem serveLocked_insert {problemId language sourceCode : String} {userId : Option Int}
    {maximum maximumPerUser : Int} {row : SubmissionRow}
    (h : (serveLocked (.insertSubmission problemId language sourceCode userId maximum
      maximumPerUser) c db).1 = .tuples [row]) :
    row = queuedRow db problemId language sourceCode userId ∧
      row ∈ (serveLocked (.insertSubmission problemId language sourceCode userId maximum
        maximumPerUser) c db).2.submissions := by
  rcases serveLocked_cases (.insertSubmission problemId language sourceCode userId maximum
    maximumPerUser) c db with ⟨-, hno, -⟩ | ⟨-, hreply⟩ | ⟨state, -, -, hreply⟩ | ⟨e, rows, hplan, -, heq⟩
  · rw [h] at hno
    cases hno
  · rw [h] at hreply
    cases hreply
  · rw [h] at hreply
    cases hreply
  · rw [heq] at h ⊢
    cases h
    simp only [LockedStatement.plan] at hplan
    split at hplan
    · dsimp only at hplan
      obtain ⟨rfl, hrow, -, hfresh⟩ := planInsert_ok hplan
      obtain rfl := List.singleton_inj.mp hrow
      refine ⟨rfl, ?_⟩
      rw [apply_plan_submissions]
      refine Table.mem_insert.mpr (Or.inr ⟨rfl, fun hkey => ?_⟩)
      obtain ⟨x, hx, he⟩ := List.mem_map.mp hkey
      exact hfresh x hx he
    · cases hplan

/-- A submission that `create` returns is in the table. -/
theorem run_create_ok {request : SubmissionRequest} {w w' : World Choice Database}
    (h : (create P limits request).run (serve P) w = (.ok (.ok r), w')) :
    ∃ row ∈ w'.state.submissions, row = queuedRow w.state (text request.problemId)
      (text request.language) (text request.code) request.userId ∧ record P row = .ok r := by
  unfold create at h
  rw [run_executeLocked] at h
  match hreply : (serveLocked (.insertSubmission (text request.problemId) (text request.language)
    (text request.code) request.userId limits.maximumActiveSubmissions
    limits.maximumActiveSubmissionsPerUser) (w.choices 0) w.state).1 with
  | .tuples [row] =>
      obtain ⟨hrow, hmem⟩ := serveLocked_insert hreply
      rw [hreply] at h
      obtain ⟨hrecord, rfl⟩ := Prod.mk.inj h
      exact ⟨row, hmem, hrow, Except.ok.inj hrecord⟩
  | .tuples [] => rw [hreply] at h; cases h
  | .tuples (_ :: _ :: _) => rw [hreply] at h; cases h
  | .none => rw [hreply] at h; cases h
  | .failed _ _ => rw [hreply] at h; cases h
  | .command => rw [hreply] at h; cases h

/-- A submission that `claim_next` returns was in the table. -/
theorem run_claimNext_ok {w : World Choice Database}
    (h : ((claimNext P limits).run (serve P) w).1 = .ok (.ok (some r))) :
    ∃ row ∈ w.state.submissions, record P (claimedRow row) = .ok r := by
  unfold claimNext at h
  rw [run_executeLocked] at h
  rcases serveLocked_cases (.claimSubmission limits.maximumRunningSubmissionsPerUser) (w.choices 0)
    w.state with ⟨-, hno, -⟩ | ⟨-, hreply⟩ | ⟨state, -, -, hreply⟩ | ⟨e, rows, hplan, -, heq⟩
  · match hreply : (serveLocked (.claimSubmission limits.maximumRunningSubmissionsPerUser)
      (w.choices 0) w.state).1 with
    | .tuples _ => rw [hreply] at hno; cases hno
    | .none => rw [hreply] at h; cases h
    | .failed _ _ => rw [hreply] at h; cases h
    | .command => rw [hreply] at h; cases h
  · rw [hreply] at h
    cases h
  · rw [hreply] at h
    cases h
  · rw [heq] at h
    obtain ⟨row, hrow, hrecord⟩ := optionalRecord_some (Except.ok.inj h)
    cases plan_ok hplan with
    | nothing => cases hrow
    | admitted hadmitted =>
        obtain ⟨_, _, hadmission, -⟩ := hadmitted.room
        cases hadmission
    | claimed hcandidate =>
        obtain rfl := List.mem_singleton.mp hrow
        exact ⟨_, (candidate_some hcandidate).1, hrecord⟩

/-- A submission that `find` returns is in the table, under the id that was asked for. -/
theorem run_find_ok {id : Int} {w : World Choice Database}
    (h : ((find P id).run (serve P) w).1 = .ok (.ok (some r))) :
    ∃ row ∈ w.state.submissions, row.id = id ∧ record P row = .ok r := by
  unfold find at h
  rw [run_execute] at h
  rcases serveStatement_cases (P := P) (.selectSubmission id) (w.choices 0) w.state with
    ⟨-, hreply⟩ | ⟨-, hreply⟩
  · rw [hreply] at h
    cases h
  · rw [hreply] at h
    obtain ⟨row, hrow, hrecord⟩ := optionalRecord_some (Except.ok.inj h)
    obtain ⟨hmem, hid⟩ := Table.mem_select.mp hrow
    exact ⟨row, hmem, beq_iff_eq.mp hid, hrecord⟩

/-- A call of `create` is a step of the queue. -/
theorem create_step {request : SubmissionRequest} {choices : Nat → Choice}
    {result : Except RepositoryError SubmissionRecord} {w : World Choice Database}
    (h : (create P limits request).run (serve P) ⟨choices, db⟩ = (.ok result, w)) :
    QueueStep P db (.call limits (.create request) choices) w.state := by
  show w.state = (Program.run (serve P) (create P limits request >>= fun _ => pure ()) _).2.state
  rw [Program.run_bind, h]
  rfl

end calls

/-! ## From the request to the judge -/

section carriage
variable {P : Platform} {db₀ db : Database} {h : List QueueLabel} {json : Json}
  {accepted : SubmissionRequest} {limits : PostgreSQLRepositoryLimits} {choices : Nat → Choice}
  {created : SubmissionRecord} {w : World Choice Database}

/-- **When the program judged is the program submitted.** In every run of the queue, let an accepted
    submission be created. The record that is returned, and every record of this submission that
    `claim_next` or `find` returns after any further steps, carries exactly what was submitted, if and only if
    neither the problem nor the code contains U+0000. -/
theorem create_carries_iff (h₀ : db₀.submissions = .empty) (hrun : Run (QueueStep P) db₀ h db)
    (haccepted : (validateSubmission json).run = .ok (.ok accepted)) (user : Option Int)
    (hcreate : (create P limits { accepted with userId := user }).run (serve P) ⟨choices, db⟩
      = (.ok (.ok created), w)) :
    (Carries created { accepted with userId := user } ∧
      ∀ h' db', Run (QueueStep P) w.state h' db' → ∀ limits' choices' r,
        (((claimNext P limits').run (serve P) ⟨choices', db'⟩).1 = .ok (.ok (some r)) →
          r.id = created.id → Carries r { accepted with userId := user }) ∧
        (((find P created.id).run (serve P) ⟨choices', db'⟩).1 = .ok (.ok (some r)) →
          Carries r { accepted with userId := user })) ↔
      '\x00' ∉ accepted.problemId.toList ∧ '\x00' ∉ accepted.code.toList := by
  obtain ⟨row, hmem, hrow, hrecord⟩ := run_create_ok hcreate
  obtain ⟨hid, hproblem, -, hsource, -⟩ := record_columns hrecord
  constructor
  · rintro ⟨hcarries, -⟩
    have hp : text accepted.problemId = accepted.problemId :=
      calc text accepted.problemId = row.problemId := by rw [hrow]; rfl
        _ = created.problemId := hproblem.symm
        _ = accepted.problemId := hcarries.problemId
    have hs : text accepted.code = accepted.code :=
      calc text accepted.code = row.sourceCode := by rw [hrow]; rfl
        _ = created.sourceCode := hsource.symm
        _ = accepted.code := hcarries.sourceCode
    exact ⟨text_eq_iff.mp hp, text_eq_iff.mp hs⟩
  · rintro ⟨hp, hs⟩
    have hlanguage : text accepted.language = accepted.language := by
      rcases (validateSubmission_accepted haccepted).1 with h | h <;> rw [h] <;> decide
    have hchecked := (create_step hcreate).checked (checked_of_run h₀ hrun)
    have hcarries : ∀ {row' : SubmissionRow} {r : SubmissionRecord}, SameSubmission row row' →
        record P row' = .ok r → Carries r { accepted with userId := user } := by
      intro row' r hsame hrecord'
      refine .of_row ?_ ?_ ?_ ?_ hsame hrecord' <;> rw [hrow]
      · exact text_eq_iff.mpr hp
      · exact hlanguage
      · exact text_eq_iff.mpr hs
      · rfl
    refine ⟨hcarries (.refl row) hrecord, fun h' db' hrun' limits' choices' r => ⟨?_, ?_⟩⟩
    · intro hclaim heq
      obtain ⟨claimed, hclaimed, hrecord'⟩ := run_claimNext_ok hclaim
      obtain ⟨row', hrow', hsame⟩ := permanent_of_run hchecked hrun' row hmem
      have hkey : claimed.id = row'.id := by
        rw [hsame.id, ← hid, ← heq]
        exact ((record_columns hrecord').1).symm
      obtain rfl := Table.eq_of_key hclaimed hrow' hkey
      have hclaimedSame : SameSubmission row (claimedRow claimed) := ⟨hsame.id, hsame.problemId,
        hsame.language, hsame.sourceCode, hsame.userId, hsame.createdAt, hsame.retryOf⟩
      exact hcarries hclaimedSame hrecord'
    · intro hfind
      obtain ⟨found, hfound, hkey, hrecord'⟩ := run_find_ok hfind
      obtain ⟨row', hrow', hsame⟩ := permanent_of_run hchecked hrun' row hmem
      obtain rfl := Table.eq_of_key hfound hrow' (hkey.trans (hid.trans hsame.id.symm))
      exact hcarries hsame hrecord'

end carriage

/-! ### A program that is cut off -/

/-- A submission whose code has a U+0000 before its last line. -/
def cutRequest : Json :=
  .object [("problemId", .string "sum"), ("language", .string "python"),
    ("code", .string "print(3)\x00print(4)")]

/-- A submission without one. -/
def wholeRequest : Json :=
  .object [("problemId", .string "sum"), ("language", .string "python"),
    ("code", .string "print(3)")]

/-- **The program judged is not the program submitted.** What is created ends before the U+0000. -/
theorem submission_cut_off : ¬ ∀ (P : Platform) (db₀ db : Database) (h : List QueueLabel),
    db₀.submissions = .empty → Run (QueueStep P) db₀ h db →
    ∀ (json : Json) (accepted : SubmissionRequest) (user : Option Int),
    (validateSubmission json).run = .ok (.ok accepted) →
    ∀ (limits : PostgreSQLRepositoryLimits) (choices : Nat → Choice) created w,
    (create P limits { accepted with userId := user }).run (serve P) ⟨choices, db⟩
      = (.ok (.ok created), w) → Carries created { accepted with userId := user } := by
  intro hclaim
  have hcarries := hclaim .plain (.initial 0) _ _ rfl .start cutRequest _ none rfl {}
    (fun _ => .calm) _ _ rfl
  exact absurd hcarries.sourceCode (by decide)

/-- A submission without a U+0000 is carried. -/
theorem create_carries_iff_whole : ∃ created w,
    (create .plain {} ⟨"sum", "python", "print(3)", none⟩).run (serve .plain)
      ⟨fun _ => .calm, .initial 0⟩ = (.ok (.ok created), w) ∧
    Carries created ⟨"sum", "python", "print(3)", none⟩ := by
  have haccepted : (validateSubmission wholeRequest).run
      = .ok (.ok ⟨"sum", "python", "print(3)", none⟩) := rfl
  have hiff := @create_carries_iff .plain (.initial 0) _ _ _ _ {} (fun _ => .calm) _ _ rfl .start
    haccepted none rfl
  exact ⟨_, _, rfl, (hiff.mpr ⟨by decide, by decide⟩).1⟩

end AlgorithmTrainer
