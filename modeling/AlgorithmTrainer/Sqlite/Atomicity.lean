import AlgorithmTrainer.Sqlite.Constraints

/-!
# `Sqlite.Atomicity` — what a transfer that fails leaves

No insert of a transfer violates a constraint, and a transfer that fails leaves no row in the target. A
rollback does not take `setval` back, though, so the sequences stay where the repair has set them.
`transfersSafely_iff` says which runs leave the target as it was.
-/

namespace AlgorithmTrainer

open Interaction Relational

/-- `foreign_key_violation`, `unique_violation` or `check_violation`. -/
def SqlState.isViolation : SqlState → Bool
  | .foreignKeyViolation | .uniqueViolation | .checkViolation => true
  | .invalidText | .fault => false

/-- The call is an insert that violates a constraint. -/
def Exchange.Violates : Exchange TransferTool → Prop
  | ⟨.insert _ _, some e⟩ => e.isViolation = true
  | _ => False

section run
variable {P : Platform} {readJsonb : ReadJsonb} {s : LegacyDatabase} {d db : Database} {t : LegacyTable}
  {r : String → Cell}

/-- An insert fails because a value is not accepted, or because a constraint refuses the row. -/
theorem insert_error {e : SqlState}
    (h : t.insert P readJsonb ((t.columns.map fun x => r x.1).map Cell.parameter) db = .error e) :
    e = .invalidText ∨ ∃ row, t.Reads P readJsonb r ((t.target P).value row) ∧
      (t.target P).refuses db row = some e := by
  unfold LegacyTable.insert at h
  rw [zip_parameters] at h
  split at h
  · cases h
    exact .inl rfl
  · rename_i values hvalues
    split at h
    · cases h
      exact .inl rfl
    · rename_i row hrow
      split at h
      · rename_i state hrefuses
        cases h
        refine .inr ⟨row, fun x hx => ?_, hrefuses⟩
        obtain ⟨v, hv, hlookup⟩ := lookup_mapM t.nodup_columns hvalues x hx
        have hvalue := (t.target P).value_of_ofValues _ row hrow x hx
        rw [hlookup, Option.getD_some] at hvalue
        rw [hv, hvalue]
      · cases h

/-! ## The calls of a run -/

section calls
variable {w : World TransferChoice TransferState}

/-- **No insert violates a constraint**, if the source is sound and no text of it is cut. -/
theorem no_violation (hsound : SoundLegacy P w.state.source) (hP : P.Lawful)
    (hfree : w.state.source.NulFree) (hd : d.countRows = 0 → d.Empty) (htarget : w.state.target = .idle d) :
    ∀ x ∈ TransferTool.main.log (serveTransfer P readJsonb) w, ¬ Exchange.Violates x := by
  refine (main_follows (s := w.state.source)).log (I := InTransfer P readJsonb w.state.source d)
    (fun φ q c state hq h => serveTransfer_inTransfer hd φ q c state hq h) ?_ ⟨rfl, rfl, htarget⟩
  intro φ q c state hq h hviolates
  cases q with
  | insert t parameters =>
      obtain ⟨stage, executed⟩ := φ
      obtain ⟨source, target⟩ := state
      obtain ⟨fault, rows, limit⟩ := c
      obtain ⟨rfl, h⟩ := h
      cases stage with
      | copying rest =>
          obtain ⟨r, rest', rfl, rfl⟩ := hq
          obtain ⟨-, -, done, db, hdone, rfl, -, hcopied⟩ := h
          cases fault with
          | true => cases hviolates
          | false =>
              have hcases := serve_insert P readJsonb t ((t.cells r).map Cell.parameter)
                (c := ⟨false, rows, limit⟩) rfl ⟨w.state.source, ⟨d, some db⟩⟩
              rcases hcases with ⟨db', -, hserve⟩ | ⟨e, hinsert, hserve⟩
              · rw [hserve] at hviolates
                exact hviolates
              · rw [hserve] at hviolates
                rcases insert_error hinsert with rfl | ⟨row, hreads, hrefuses⟩
                · cases hviolates
                · cases hrefuses.symm.trans (refuses_none hsound hP hfree hdone hcopied hreads)
      | _ => exact hq.elim
  | _ => exact hviolates

/-- Only a `COMMIT` that succeeds leads to the last stage. -/
theorem committed_mem {φ : TransferPhase} (l : List (Exchange TransferTool))
    (h : ((transferProtocol s).after φ l).stage = .committed) (hφ : φ.stage ≠ .committed) :
    ⟨.commit, true⟩ ∈ l := by
  induction l generalizing φ with
  | nil => exact absurd h hφ
  | cons x l ih =>
      by_cases hnext : ((transferProtocol s).next φ x.request x.reply).stage = .committed
      · refine List.mem_cons.mpr (.inl ?_)
        obtain ⟨q, reply⟩ := x
        obtain ⟨stage, executed⟩ := φ
        have hstage : stage.next s q reply = .committed := hnext
        unfold TransferStage.next at hstage
        split at hstage
        case h_3 =>
          split at hstage
          · cases hstage
          · exact absurd hstage hφ
        case h_5 => rfl
        case h_7 => exact absurd hstage hφ
        all_goals cases hstage
      · exact List.mem_cons_of_mem _ (ih h hnext)

/-- A run whose `COMMIT` succeeds makes no other call, and reports success. -/
theorem ok_of_commit (hd : d.countRows = 0 → d.Empty) (htarget : w.state.target = .idle d)
    (hcommit : ⟨.commit, true⟩ ∈ TransferTool.main.log (serveTransfer P readJsonb) w) :
    (TransferTool.main.run (serveTransfer P readJsonb) w).1 = .ok 0 := by
  obtain ⟨l, l', hlog⟩ := List.append_of_mem hcommit
  obtain ⟨hends, -⟩ := main_run (P := P) (w := w) hd htarget
  cases l' with
  | nil =>
      rw [hlog] at hends
      rcases hends with ⟨hok, -⟩ | ⟨-, hclosed | haborted⟩
      · exact hok
      · rw [Protocol.after, List.foldl_append] at hclosed
        cases hclosed
      · rw [Protocol.after, List.foldl_append] at haborted
        cases haborted
  | cons x l' =>
      have hlater : TransferTool.main.log (serveTransfer P readJsonb) w
          = (l ++ [⟨.commit, true⟩]) ++ x :: l' := by rw [hlog, List.append_assoc]; rfl
      have hallowed := main_follows.allowed_of_log (V := serveTransfer P readJsonb)
        (I := InTransfer P readJsonb w.state.source d)
        (fun φ q c state hq h => serveTransfer_inTransfer hd φ q c state hq h) ⟨rfl, rfl, htarget⟩ hlater
      rw [Protocol.after, List.foldl_append] at hallowed
      exact hallowed.elim

/-- A run that reports success has made its `COMMIT`. -/
theorem commit_of_ok (hd : d.countRows = 0 → d.Empty) (htarget : w.state.target = .idle d)
    (hok : (TransferTool.main.run (serveTransfer P readJsonb) w).1 = .ok 0) :
    ⟨.commit, true⟩ ∈ TransferTool.main.log (serveTransfer P readJsonb) w := by
  obtain ⟨hends, -⟩ := main_run (P := P) (w := w) hd htarget
  rcases hends with ⟨-, hcommitted⟩ | ⟨hfailed, -⟩
  · exact committed_mem _ hcommitted fun h => by cases h
  · rw [hok] at hfailed
    cases hfailed

/-- **What a run that fails leaves**: the database as it was, but for the sequences that were repaired. -/
theorem left_behind (hd : d.countRows = 0 → d.Empty) (htarget : w.state.target = .idle d)
    (hfailed : (TransferTool.main.run (serveTransfer P readJsonb) w).1 ≠ .ok 0) :
    (TransferTool.main.run (serveTransfer P readJsonb) w).2.state.target =
      .idle { d with sequences := w.state.source.repaired (generatedTables.take
        (executedSetvals (TransferTool.main.log (serveTransfer P readJsonb) w))) d.sequences } := by
  obtain ⟨hends, -, hholds⟩ := main_run (P := P) (w := w) hd htarget
  have hexecuted := executed_after (s := w.state.source) ⟨.closed, 0⟩
    (TransferTool.main.log (serveTransfer P readJsonb) w)
  rw [Nat.zero_add] at hexecuted
  rcases hends with ⟨hok, -⟩ | ⟨-, hclosed | haborted⟩
  · exact absurd hok hfailed
  · rw [hclosed, hexecuted] at hholds
    obtain ⟨hnone, hidle⟩ := hholds
    rw [hnone]
    exact hidle
  · rw [haborted, hexecuted] at hholds
    exact hholds.2

/-- A target that is not empty is refused before anything is repaired. -/
theorem executed_of_refused (hd : d.countRows = 0 → d.Empty) (hnonempty : d.countRows ≠ 0)
    (htarget : w.state.target = .idle d) :
    (TransferTool.main.run (serveTransfer P readJsonb) w).1 = .ok 1 ∧
      executedSetvals (TransferTool.main.log (serveTransfer P readJsonb) w) = 0 := by
  obtain ⟨hends, -, hholds⟩ := main_run (P := P) (w := w) hd htarget
  have hexecuted := executed_after (s := w.state.source) ⟨.closed, 0⟩
    (TransferTool.main.log (serveTransfer P readJsonb) w)
  rw [Nat.zero_add] at hexecuted
  rcases hends with ⟨-, hcommitted⟩ | ⟨hfailed, hclosed | haborted⟩
  · rw [hcommitted] at hholds
    exact absurd hholds.1.counted hnonempty
  · rw [hclosed, hexecuted] at hholds
    exact ⟨hfailed, hholds.1⟩
  · rw [haborted, hexecuted] at hholds
    refine ⟨hfailed, ?_⟩
    by_contra hne
    exact hnonempty (hholds.1 hne).counted

end calls
end run

/-! ## Which runs leave the target as it was -/

/-- What a transfer is to do, whatever fails during it: no insert violates a constraint, a retry is inserted
    after what it retries, a target that is not empty is refused, and a run that fails leaves the target as it
    was. -/
structure TransfersSafely (P : Platform) (readJsonb : ReadJsonb) (d : Database)
    (w : World TransferChoice TransferState) : Prop where
  admitted : ∀ x ∈ TransferTool.main.log (serveTransfer P readJsonb) w, ¬ Exchange.Violates x
  retries : ∀ us u ws, w.state.source.submissions = us ++ u :: ws →
    ∀ id, u.retryOf = some id → ∃ y ∈ us, y.id = id
  refused : d.countRows ≠ 0 → (TransferTool.main.run (serveTransfer P readJsonb) w).1 = .ok 1
  atomic : (TransferTool.main.run (serveTransfer P readJsonb) w).1 ≠ .ok 0 →
    (TransferTool.main.run (serveTransfer P readJsonb) w).2.state.target = .idle d

/-- In the run, `COMMIT` succeeds, or no `setval` that is executed moves its sequence. -/
def RepairStands (P : Platform) (readJsonb : ReadJsonb) (d : Database)
    (w : World TransferChoice TransferState) : Prop :=
  ⟨.commit, true⟩ ∈ TransferTool.main.log (serveTransfer P readJsonb) w ∨
    w.state.source.repaired (generatedTables.take
      (executedSetvals (TransferTool.main.log (serveTransfer P readJsonb) w))) d.sequences = d.sequences

/-- Where no problem is, there is no hidden test either. -/
theorem empty_of_references {d : Database}
    (hreferences : ∀ t ∈ d.problemTests, ∃ p ∈ d.problems, p.id = t.problemId) (h : d.countRows = 0) :
    d.Empty := by
  refine ⟨h, List.eq_nil_iff_forall_not_mem.mpr fun t ht => ?_⟩
  obtain ⟨p, hp, -⟩ := hreferences t ht
  have hcounted : d.users.rows.length + d.problems.rows.length + d.submissions.rows.length
    + d.sessions.rows.length + d.adminAuditLog.rows.length = 0 := h
  have hnone : d.problems.rows = [] := List.length_eq_zero_iff.mp (by omega)
  have hmem : p ∈ d.problems.rows := hp
  rw [hnone] at hmem
  exact absurd hmem List.not_mem_nil

/-- **Which transfers are safe**: those whose repair of the sequences is committed, or moves none. -/
theorem transfersSafely_iff {P : Platform} (hP : P.Lawful) (readJsonb : ReadJsonb)
    {strftime : Timestamp → String} {d : Database} {w : World TransferChoice TransferState}
    (hreachable : LegacyReachable P strftime w.state.source) (hfree : w.state.source.NulFree)
    (htarget : w.state.target = .idle d)
    (hreferences : ∀ t ∈ d.problemTests, ∃ p ∈ d.problems, p.id = t.problemId) :
    TransfersSafely P readJsonb d w ↔ RepairStands P readJsonb d w := by
  have hsound := hreachable.sound
  have hd := empty_of_references hreferences
  constructor
  · intro hsafe
    by_cases hok : (TransferTool.main.run (serveTransfer P readJsonb) w).1 = .ok 0
    · exact .inl (commit_of_ok hd htarget hok)
    · have hleft := left_behind (P := P) hd htarget hok
      rw [hsafe.atomic hok] at hleft
      have hcommitted := congrArg (fun t : Session Database => t.committed.sequences) hleft
      exact .inr hcommitted.symm
  · intro hstands
    refine ⟨no_violation hsound hP hfree hd htarget, fun us u ws horder id hretry =>
      retried_before hsound.queue horder hretry, fun hnonempty =>
      (executed_of_refused hd hnonempty htarget).1, fun hfailed => ?_⟩
    rcases hstands with hcommit | hkept
    · exact absurd (ok_of_commit hd htarget hcommit) hfailed
    · rw [left_behind hd htarget hfailed, hkept]

/-! ### One account -/

/-- How timestamps are printed and read makes no difference. -/
theorem Platform.Lawful.printing {P : Platform} (h : P.Lawful) (printTimestamp : Timestamp → String)
    (readTimestamp : String → Option Timestamp) :
    Platform.Lawful { P with printTimestamp, readTimestamp } where
  lower_ascii := h.lower_ascii
  verify_exact := h.verify_exact
  tokenHash_injective := h.tokenHash_injective

theorem utc_lawful : utc.Lawful := Platform.plain_lawful.printing _ _

/-- The accounts after the auth service has set up the administrator. -/
def administered : SqliteAuthState :=
  ((AuthCall.ensureAdmin "admin" "password").sqliteProgram utc "").run (serveSqliteAuth utc isoText)
    ⟨fun _ => .calm, ⟨.initial, ten⟩⟩ |>.2.state

/-- The transfer of that account to a fresh target, where one of the requests fails. -/
def transferFailing (n : Nat) : World TransferChoice TransferState where
  choices k := { fault := k == n, executed := generatedTables.length }
  state := ⟨{ LegacyDatabase.initial with
    accounts := administered.database
    queue := .initial (administered.database.users.rows.map (·.id)) }, .idle (.initial 0)⟩

theorem transferFailing_reachable (n : Nat) :
    LegacyReachable utc isoText (transferFailing n).state.source :=
  .single (.accounts (.call (.ensureAdmin "admin" "password") "" fun _ => .calm))

/-- Where the insert fails, nothing is left. -/
theorem insert_failure_undone :
    (TransferTool.main.run (serveTransfer utc noJson) (transferFailing 8)).1 = .ok 1 ∧
      TransfersSafely utc noJson (.initial 0) (transferFailing 8) := by
  refine ⟨by decide +kernel, ?_⟩
  have hexecuted :
      executedSetvals (TransferTool.main.log (serveTransfer utc noJson) (transferFailing 8)) = 0 := by
    decide +kernel
  have hfree : (transferFailing 8).state.source.NulFree := by
    intro t
    cases t <;> decide +kernel
  refine (transfersSafely_iff utc_lawful noJson (transferFailing_reachable 8) hfree rfl
    fun t ht => absurd ht (Table.not_mem_empty t)).mpr (.inr ?_)
  rw [hexecuted]
  rfl

/-- Where `COMMIT` fails, the tool reports it, but the next account would get the id 2. -/
example : (TransferTool.main.run (serveTransfer utc noJson) (transferFailing 15)).1 = .ok 1 ∧
    (TransferTool.main.run (serveTransfer utc noJson)
      (transferFailing 15)).2.state.target.committed.sequences.users = 2 := by
  decide +kernel

end AlgorithmTrainer
