import Mathlib.Data.List.Dedup
import Mathlib.Order.Bounds.Basic
import AlgorithmTrainer.Database.Statement
import AlgorithmTrainer.Sqlite.Statement

/-!
# `Sqlite.Streak` — the current streak in both databases

Both queries number the distinct days on which a user has completed something, latest first, and count the
days whose distance from the latest is their number. `CurrentStreak` says what a streak is, without an
order or a number; `streak_queries_agree` proves that both databases compute it.

A day is a day number here: in SQLite it is a text, and the texts of days are ordered as the days are.
-/

namespace AlgorithmTrainer

open Relational

/-! ## Runs of consecutive days -/

/-- The lengths of the runs of consecutive days that end at a day. -/
def runsEndingAt (days : Set Int) (latest : Int) : Set Nat := {n | ∀ i < n, latest - (i : Int) ∈ days}

/-- The length of the longest run of consecutive days that ends at the latest, if that is yesterday or later,
    and `0` otherwise. -/
structure CurrentStreak (days : Set Int) (today : Int) (n : Nat) : Prop where
  running : ∀ latest, IsGreatest days latest → today - 1 ≤ latest →
    IsGreatest (runsEndingAt days latest) n
  ended : (∀ day ∈ days, day < today - 1) → n = 0

/-- The days, latest first, whose distance from a day is their number, where the numbers start at `k`. -/
def numbered (latest : Int) (k : Nat) (days : List Int) : Nat :=
  (days.zipIdx k).countP fun d => decide (latest - d.1 = (d.2 : Int))

section runs
variable {latest : Int} {k : Nat} {days : List Int}

theorem numbered_cons (latest : Int) (k : Nat) (day : Int) (days : List Int) :
    numbered latest k (day :: days)
      = numbered latest (k + 1) days + if latest - day = (k : Int) then 1 else 0 := by
  rw [numbered, List.zipIdx_cons, List.countP_cons]
  simp [numbered]

/-- After a gap, every distance is greater than the number. -/
theorem numbered_of_gap (hsorted : days.Pairwise (· > ·)) (hgap : ∀ day ∈ days, day < latest - k) :
    numbered latest k days = 0 := by
  induction days generalizing k with
  | nil => rfl
  | cons day days ih =>
      obtain ⟨hlater, hrest⟩ := List.pairwise_cons.mp hsorted
      have hday := hgap day List.mem_cons_self
      have htail : numbered latest (k + 1) days = 0 := by
        apply ih hrest
        intro d hd
        have hd' := hlater d hd
        push_cast
        omega
      rw [numbered_cons, htail, if_neg (by omega)]

/-- **The count is the run.** As long as the days are consecutive their distance is their number, and after
    the first gap it never is again. -/
theorem numbered_spec (hsorted : days.Pairwise (· > ·)) (hbound : ∀ day ∈ days, day ≤ latest - k) :
    (∀ i < numbered latest k days, latest - k - (i : Int) ∈ days) ∧
      latest - k - (numbered latest k days : Int) ∉ days := by
  induction days generalizing k with
  | nil => exact ⟨fun i hi => absurd hi (Nat.not_lt_zero i), List.not_mem_nil⟩
  | cons day days ih =>
      obtain ⟨hlater, hrest⟩ := List.pairwise_cons.mp hsorted
      have hday := hbound day List.mem_cons_self
      by_cases hnext : latest - day = (k : Int)
      · -- The run goes on with this day.
        have hshift : ∀ i : Nat, latest - ((k + 1 : Nat) : Int) - (i : Int)
            = latest - k - ((i + 1 : Nat) : Int) := by
          intro i
          push_cast
          omega
        have htail := @ih (k + 1) hrest fun d hd => by
          have hd' := hlater d hd
          push_cast
          omega
        simp only [hshift] at htail
        rw [numbered_cons, if_pos hnext]
        refine ⟨fun i hi => ?_, fun hmem => ?_⟩
        · cases i with
          | zero =>
              have hfirst : latest - k - ((0 : Nat) : Int) = day := by
                push_cast
                omega
              rw [hfirst]
              exact List.mem_cons_self
          | succ i => exact List.mem_cons_of_mem _ (htail.1 i (by omega))
        · rcases List.mem_cons.mp hmem with he | hmem
          · push_cast at he
            omega
          · exact htail.2 hmem
      · have htail : numbered latest (k + 1) days = 0 := by
          apply numbered_of_gap hrest
          intro d hd
          have hd' := hlater d hd
          push_cast
          omega
        rw [numbered_cons, htail, if_neg hnext]
        refine ⟨fun i hi => absurd hi (Nat.not_lt_zero i), fun hmem => ?_⟩
        have hmem : latest - (k : Int) - ((0 : Nat) : Int) ∈ day :: days := hmem
        rcases List.mem_cons.mp hmem with he | hmem
        · push_cast at he
          omega
        · have hd := hlater _ hmem
          push_cast at hd
          omega

/-- The days in the order of the queries. -/
def latestDaysFirst (days : List Int) : List Int := orderBy (fun a b => decide (b ≤ a)) days.dedup

theorem mem_latestDaysFirst {day : Int} : day ∈ latestDaysFirst days ↔ day ∈ days := by
  rw [latestDaysFirst, mem_orderBy, List.mem_dedup]

/-- No day comes twice, so the order is strict. -/
theorem latestDaysFirst_sorted (days : List Int) : (latestDaysFirst days).Pairwise (· > ·) := by
  have hsorted := @pairwise_orderBy Int (fun a b => decide (b ≤ a))
    (fun a b => by simp only [decide_eq_true_eq]; omega)
    (fun a b c => by simp only [decide_eq_true_eq]; omega) days.dedup
  have hnodup : (latestDaysFirst days).Nodup :=
    (List.perm_insertionSort _ _).nodup_iff.mpr (List.nodup_dedup days)
  refine (hsorted.and hnodup).imp ?_
  rintro a b ⟨hle, hne⟩
  have hle := of_decide_eq_true hle
  omega

/-- The count over all days is the longest run that ends at the latest. -/
theorem numbered_isGreatest (hlatest : IsGreatest {d | d ∈ days} latest) :
    IsGreatest (runsEndingAt {d | d ∈ days} latest) (numbered latest 0 (latestDaysFirst days)) := by
  obtain ⟨hrun, hgap⟩ := @numbered_spec latest 0 (latestDaysFirst days) (latestDaysFirst_sorted days)
    (fun day hday => by
      have hle := hlatest.2 (mem_latestDaysFirst.mp hday)
      push_cast
      omega)
  have hzero : ∀ i : Nat, latest - ((0 : Nat) : Int) - (i : Int) = latest - (i : Int) := by
    intro i
    push_cast
    omega
  simp only [hzero, mem_latestDaysFirst] at hrun hgap
  refine ⟨hrun, fun n hn => ?_⟩
  -- A longer run would go over the gap.
  by_contra hlonger
  exact hgap (hn _ (by omega))

/-- There is one streak only. -/
theorem CurrentStreak.unique {days : List Int} {today : Int} {m n : Nat}
    (hm : CurrentStreak {d | d ∈ days} today m) (hn : CurrentStreak {d | d ∈ days} today n) : m = n := by
  cases hmax : days.max? with
  | none =>
      have hnone : ∀ day ∈ {d | d ∈ days}, day < today - 1 := by
        rw [List.max?_eq_none_iff.mp hmax]
        exact fun day hday => absurd hday List.not_mem_nil
      rw [hm.ended hnone, hn.ended hnone]
  | some latest =>
      obtain ⟨hmem, hle⟩ := List.max?_eq_some_iff.mp hmax
      have hlatest : IsGreatest {d | d ∈ days} latest := ⟨hmem, hle⟩
      by_cases hrecent : today - 1 ≤ latest
      · exact (hm.running latest hlatest hrecent).unique (hn.running latest hlatest hrecent)
      · have hold : ∀ day ∈ {d | d ∈ days}, day < today - 1 := fun day hday => by
          have hday' := hle day hday
          omega
        rw [hm.ended hold, hn.ended hold]

/-- The two cases of the queries. -/
theorem currentStreak_of_latest {today : Int} (hlatest : IsGreatest {d | d ∈ days} latest) :
    CurrentStreak {d | d ∈ days} today
      (if latest < today - 1 then 0 else numbered latest 0 (latestDaysFirst days)) where
  running other hother hrecent := by
    obtain rfl := hother.unique hlatest
    rw [if_neg (by omega)]
    exact numbered_isGreatest hlatest
  ended hold := if_pos (hold latest hlatest.1)

theorem currentStreak_of_none {today : Int} (hnone : days = []) : CurrentStreak {d | d ∈ days} today 0 where
  running latest hlatest _ := by
    rw [hnone] at hlatest
    exact absurd hlatest.1 List.not_mem_nil
  ended _ := rfl

end runs

/-! ## The queries -/

/-- The streak query: of the distinct completion days, latest first, the number of those whose distance from
    the latest equals their position; `0` if the latest, or the empty text, is before yesterday. -/
def SqliteDatabase.streak (date : String → Int) (now : String) (userId : Int) (db : SqliteDatabase) : Int :=
  let days := ((db.submissions.select fun r => r.userId == some userId && r.verdict == some "Accepted"
    && r.completedAt.isSome).filterMap fun r => r.completedAt.map date).dedup
  let latest := days.max?
  let ordered := (orderBy (fun a b => decide (b ≤ a)) days).zipIdx
  if latest.all fun day => decide (day < date now - 1) then 0
  else (ordered.countP fun row => latest.any fun day => decide (day - row.1 = (row.2 : Int)) : Nat)

/-- The days on which a user has completed something, in PostgreSQL. -/
def completionDays (P : Platform) (userId : Int) (db : Database) : List Int :=
  ((db.submissions.select fun r => r.userId == some userId
    && r.verdict == some "Accepted").filterMap (·.completedAt)).map P.date

/-- The days on which a user has completed something, in SQLite. -/
def sqliteCompletionDays (date : String → Int) (userId : Int) (db : SqliteDatabase) : List Int :=
  (db.submissions.select fun r => r.userId == some userId && r.verdict == some "Accepted"
    && r.completedAt.isSome).filterMap fun r => r.completedAt.map date

section queries
variable {P : Platform} {userId : Int}

theorem streak_of_nil {now : Timestamp} {accepted : List SubmissionRow}
    (h : latestDaysFirst ((accepted.filterMap (·.completedAt)).map P.date) = []) :
    streak P now accepted = 0 := by
  unfold latestDaysFirst at h
  simp only [streak, h]

theorem streak_of_cons {now : Timestamp} {accepted : List SubmissionRow} {latest : Int} {rest : List Int}
    (h : latestDaysFirst ((accepted.filterMap (·.completedAt)).map P.date) = latest :: rest) :
    streak P now accepted
      = ((if latest < P.date now - 1 then 0 else numbered latest 0 (latest :: rest) : Nat) : Int) := by
  unfold latestDaysFirst at h
  simp only [streak, h, numbered]
  split
  · rfl
  · rfl

theorem postgresql_streak (P : Platform) (userId : Int) (db : Database) :
    ∃ n : Nat, streak P db.clock (db.submissions.select fun r =>
        r.userId == some userId && r.verdict == some "Accepted") = n ∧
      CurrentStreak {d | d ∈ completionDays P userId db} (P.date db.clock) n := by
  cases hdays : latestDaysFirst (completionDays P userId db) with
  | nil =>
      refine ⟨0, streak_of_nil hdays,
        currentStreak_of_none (List.eq_nil_iff_forall_not_mem.mpr fun day hday => ?_)⟩
      have hmem := mem_latestDaysFirst.mpr hday
      rw [hdays] at hmem
      exact absurd hmem List.not_mem_nil
  | cons latest rest =>
      have hlatest : IsGreatest {d | d ∈ completionDays P userId db} latest := by
        have hsorted := latestDaysFirst_sorted (completionDays P userId db)
        rw [hdays] at hsorted
        refine ⟨mem_latestDaysFirst.mp (by rw [hdays]; exact List.mem_cons_self), fun day hday => ?_⟩
        have hmem := mem_latestDaysFirst.mpr hday
        rw [hdays] at hmem
        rcases List.mem_cons.mp hmem with rfl | hmem
        · exact Int.le_refl _
        · exact Int.le_of_lt ((List.pairwise_cons.mp hsorted).1 day hmem)
      refine ⟨_, ?_, currentStreak_of_latest hlatest⟩
      rw [hdays]
      exact streak_of_cons hdays

theorem sqlite_streak (date : String → Int) (now : String) (userId : Int) (db : SqliteDatabase) :
    ∃ n : Nat, db.streak date now userId = n ∧
      CurrentStreak {d | d ∈ sqliteCompletionDays date userId db} (date now) n := by
  have hunfold : db.streak date now userId
      = if (sqliteCompletionDays date userId db).dedup.max?.all fun day => decide (day < date now - 1)
        then 0
        else (((latestDaysFirst (sqliteCompletionDays date userId db)).zipIdx.countP fun row =>
          (sqliteCompletionDays date userId db).dedup.max?.any fun day =>
            decide (day - row.1 = (row.2 : Int)) : Nat) : Int) := rfl
  rw [hunfold]
  cases hmax : (sqliteCompletionDays date userId db).dedup.max? with
  | none =>
      have hnil := List.max?_eq_none_iff.mp hmax
      refine ⟨0, rfl, currentStreak_of_none (List.eq_nil_iff_forall_not_mem.mpr fun day hday => ?_)⟩
      have hmem := List.mem_dedup.mpr hday
      rw [hnil] at hmem
      exact absurd hmem List.not_mem_nil
  | some latest =>
      obtain ⟨hmem, hle⟩ := List.max?_eq_some_iff.mp hmax
      have hlatest : IsGreatest {d | d ∈ sqliteCompletionDays date userId db} latest :=
        ⟨List.mem_dedup.mp hmem, fun day hday => hle day (List.mem_dedup.mpr hday)⟩
      refine ⟨_, ?_, currentStreak_of_latest hlatest⟩
      by_cases hold : latest < date now - 1
      · simp [hold]
      · simp [hold, numbered]

/-- **Both databases compute the current streak.** Where they hold the same completion days of a user, and the
    same day is today, both queries return one number: the length of the longest run of consecutive days
    that ends at the latest, if that is yesterday or later, and `0` otherwise. -/
theorem streak_queries_agree (P : Platform) (message : String) (userId : Int) (db : Database)
    (date : String → Int) (now : String) (sqlite : SqliteDatabase)
    (hdays : ∀ day, day ∈ completionDays P userId db ↔ day ∈ sqliteCompletionDays date userId sqlite)
    (htoday : date now = P.date db.clock) :
    ∃ n : Nat, Statement.exec P message (.selectStreak userId) db = (db, .tuples [(n : Int)]) ∧
      sqlite.streak date now userId = n ∧
      CurrentStreak {d | d ∈ completionDays P userId db} (P.date db.clock) n := by
  obtain ⟨n, hpostgresql, hn⟩ := postgresql_streak P userId db
  obtain ⟨m, hsqlite, hm⟩ := sqlite_streak date now userId sqlite
  have hsame : {d | d ∈ sqliteCompletionDays date userId sqlite} = {d | d ∈ completionDays P userId db} :=
    Set.ext fun day => (hdays day).symm
  rw [hsame, htoday] at hm
  obtain rfl := hn.unique hm
  refine ⟨n, ?_, hsqlite, hn⟩
  show (db, Result.tuples [_]) = _
  rw [hpostgresql]

end queries

/-! ### Two days in a row -/

/-- A user has completed something yesterday, and today. -/
def twoDays : Database :=
  { Database.initial (3 * 86400 * second) with
    submissions := (Table.empty.insert
      ⟨1, "a-plus-b", "python", "pass", "completed", some "Accepted", 0, some (2 * 86400 * second), some 7,
        none, none⟩).insert
      ⟨2, "a-plus-b", "python", "pass", "completed", some "Accepted", 0, some (3 * 86400 * second), some 7,
        none, none⟩ }

/-- The same submissions in SQLite. -/
def sqliteTwoDays : SqliteDatabase :=
  { SqliteDatabase.initial [7] with
    submissions := (Table.empty.insert
      ⟨1, "a-plus-b", "python", "pass", "completed", some "Accepted", "1970-01-01T00:00:00.000Z",
        some "1970-01-03T00:00:00.000Z", some 7, none, none⟩).insert
      ⟨2, "a-plus-b", "python", "pass", "completed", some "Accepted", "1970-01-01T00:00:00.000Z",
        some "1970-01-04T00:00:00.000Z", some 7, none, none⟩ }

/-- The days of these two texts, counted from 1970. -/
def dayOfText (timestamp : String) : Int := if timestamp = "1970-01-03T00:00:00.000Z" then 2 else 3

set_option maxRecDepth 4000 in
theorem streak_queries_agree_two_days :
    ∃ n : Nat, Statement.exec .plain "" (.selectStreak 7) twoDays = (twoDays, .tuples [(n : Int)]) ∧
      sqliteTwoDays.streak dayOfText "1970-01-04T00:00:00.000Z" 7 = n ∧
      CurrentStreak {d | d ∈ completionDays .plain 7 twoDays} (Platform.plain.date twoDays.clock) n :=
  streak_queries_agree .plain "" 7 twoDays dayOfText "1970-01-04T00:00:00.000Z" sqliteTwoDays
    (fun day => by
      have hpostgresql : completionDays .plain 7 twoDays = [2, 3] := by decide
      have hsqlite : sqliteCompletionDays dayOfText 7 sqliteTwoDays = [2, 3] := by decide
      rw [hpostgresql, hsqlite])
    (by decide)

set_option maxRecDepth 4000 in
example : sqliteTwoDays.streak dayOfText "1970-01-04T00:00:00.000Z" 7 = 2 := by decide

end AlgorithmTrainer
