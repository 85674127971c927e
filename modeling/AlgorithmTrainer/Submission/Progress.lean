import Mathlib.Data.List.Dedup
import AlgorithmTrainer.Submission.Refusal

/-!
# `Submission.Progress` — the parts of a profile

`progress` sends three queries, each a statement of its own, and puts the answer together from them. Clients
that create, retry, complete and fail submissions run their commands in between (`ProfilePool`).

`progress_describes_one_state` says when the parts belong together: if no step between the first and the
third query changes which submissions of the user are accepted.
-/

namespace AlgorithmTrainer

open Interaction Interaction.Pool Transition Relational PostgreSQLSubmissionRepository

/-! ## What a profile describes -/

/-- The accepted submissions of a user. -/
def acceptedOf (userId : Int) (db : Database) : List SubmissionRow :=
  db.submissions.select fun r => r.userId == some userId && r.verdict == some "Accepted"

/-- The progress of a user that these rows amount to, on the day of `now`. -/
def userProgress (P : Platform) (now : Timestamp) (userId : Int) (db : Database) : UserProgress where
  totalSubmissions := db.submissions.count (·.userId == some userId)
  acceptedSubmissions := db.submissions.count fun r => r.userId == some userId && r.verdict == some "Accepted"
  currentStreakDays := streak P now (acceptedOf userId db)
  mostRecentSubmissionProblemId :=
    (orderBy newestFirst (db.submissions.select (·.userId == some userId))).head?.map (·.problemId)
  completedProblems := (completedProblems (acceptedOf userId db)).map fun row =>
    ⟨row.problemId, (row.completedAt.map P.printTimestamp).getD ""⟩

section described
variable {P : Platform} {now : Timestamp} {userId : Int} {db : Database}

theorem count_accepted (userId : Int) (db : Database) :
    (db.submissions.count fun r => r.userId == some userId && r.verdict == some "Accepted")
      = (acceptedOf userId db).length := List.countP_eq_length_filter

/-- There are not more completed problems than accepted submissions. -/
theorem completed_le_accepted (P : Platform) (now : Timestamp) (userId : Int) (db : Database) :
    ((userProgress P now userId db).completedProblems.length : Int)
      ≤ (userProgress P now userId db).acceptedSubmissions := by
  show (((completedProblems (acceptedOf userId db)).map _).length : Int) ≤ ((Table.count _ _ : Nat) : Int)
  rw [count_accepted]
  have hdedup : ((acceptedOf userId db).map (·.problemId)).dedup.length
      ≤ ((acceptedOf userId db).map (·.problemId)).length := (List.dedup_sublist _).length_le
  rw [List.length_map] at hdedup
  rw [List.length_map, completedProblems, orderBy, List.length_insertionSort, List.length_map]
  exact Int.ofNat_le.mpr hdedup

/-- Without an accepted submission there is no streak. -/
theorem streak_accepted (h : 0 < (userProgress P now userId db).currentStreakDays) :
    0 < (userProgress P now userId db).acceptedSubmissions := by
  have hstreak : 0 < streak P now (acceptedOf userId db) := h
  show 0 < ((Table.count _ _ : Nat) : Int)
  rw [count_accepted]
  cases haccepted : acceptedOf userId db with
  | nil =>
      rw [haccepted] at hstreak
      have hzero : streak P now [] = 0 := rfl
      rw [hzero] at hstreak
      exact absurd hstreak (Int.lt_irrefl 0)
  | cons row rows =>
      rw [List.length_cons]
      omega

end described

/-! ## Clients that read profiles -/

/-- What a client calls. -/
inductive ProfileCall where
  | progress (userId : Int)
  | client (call : ClientCall)

/-- What a call returns. -/
abbrev ProfileResult := Except RepositoryError UserProgress ⊕ Except RepositoryError SubmissionRecord

/-- The program of a call, on the connection of client `i`. -/
def ProfileCall.onConnection {ι : Type} (P : Platform) (i : ι) :
    ProfileCall → Program (ClientWire ι) Exception ProfileResult
  | .progress userId => do
      let progress ← (PostgreSQLSubmissionRepository.progress P userId).handle
        (AlgorithmTrainer.onConnection i)
      pure (.inl progress)
  | .client call => do
      let record ← call.onConnection P i
      pure (.inr record)

/-- A client begins a call, or time passes. -/
inductive ProfileControl (ι : Type) where
  | begin (i : ι) (call : ProfileCall)
  | pass (elapsed : Nat)

section pool
variable {ι : Type} [DecidableEq ι] (P : Platform)

abbrev ProfilePool (ι : Type) := Pool ι (ClientWire ι) Exception ProfileResult (Clients ι)

abbrev ProfileEvent (ι : Type) := Event ι (ClientWire ι) Choice (ProfileControl ι)

/-- The steps of a run, latest first, each with the state before it. -/
abbrev ProfileHistory (ι : Type) := List (Clients ι × ProfileEvent ι)

/-- The program that a control step gives a client. -/
def begunProfile : ProfileControl ι → ι → Option (Program (ClientWire ι) Exception ProfileResult)
  | .begin j call, i => if j = i then some (call.onConnection P i) else none
  | .pass _, _ => none

/-- A client that is in no call begins one. -/
def profileControl : ProfileControl ι → ProfilePool ι → Option (ProfilePool ι)
  | .begin i call, p =>
      match p.thread i with
      | .call _ _ => none
      | .ret _ | .raise _ =>
          some ⟨p.shared, Function.update p.thread i (call.onConnection P i)⟩
  | .pass elapsed, p => some ⟨{ p.shared with committed :=
      { p.shared.committed with clock := p.shared.committed.clock + elapsed } }, p.thread⟩

/-- Clients that have called nothing. -/
def idleProfiles (ι : Type) (db : Database) : ProfilePool ι :=
  ⟨⟨db, fun _ => none⟩, fun _ => .raise .badVariantAccess⟩

/-- The last call that a client has begun. -/
def lastCall (i : ι) : ProfileHistory ι → Option ProfileCall
  | [] => none
  | (_, .control (.begin j call)) :: h => if j = i then some call else lastCall i h
  | (_, .control (.pass _)) :: h => lastCall i h
  | (_, .call _ _ _) :: h => lastCall i h

/-- The queries of the last call of a client, first query first: what decided each answer, and the rows it was
    answered on. -/
def queriesOf (i : ι) (h : ProfileHistory ι) : List (Choice × Database) :=
  (asked (begunProfile P) i h).filterMap plainRows?

/-- The user whose progress a client reads, from its first query on and before its third. -/
def readsProgressOf (i : ι) (h : ProfileHistory ι) : Option Int :=
  match lastCall i h with
  | some (.progress userId) =>
      if 0 < (queriesOf P i h).length ∧ (queriesOf P i h).length < 3 then some userId else none
  | _ => none

/-- The rows after a step. -/
def rowsAfter (s : Clients ι) : ProfileEvent ι → Database
  | .call _ c x => ((serveClients P) x.request c s).2.committed
  | .control _ => s.committed

/-- A step that comes after the first query of a `progress` and before its third leaves it as it was which
    submissions of the user are accepted. -/
def AcceptedKept (h : ProfileHistory ι) (p : ProfilePool ι) (l : Clients ι × ProfileEvent ι) : Prop :=
  ∀ i, ∀ userId ∈ readsProgressOf P i (l :: h),
    acceptedOf userId (rowsAfter P p.shared l.2) = acceptedOf userId p.shared.committed

end pool

/-! ## The queries of a call -/

section queries
variable {ι : Type} [DecidableEq ι] {P : Platform} {i : ι} {log : ClientLog ι} {userId : Int}

/-- `execute` makes one query, which is answered on the rows of that moment. -/
theorem plays_query {t : Statement} {r : Result t.Row}
    (h : Program.Plays (serveClients P)
      (Connection.execute i (Sum.inr t) : Program (Wire ι Sql.Row) Exception _).inl log (.ret r)) :
    ∃ c db, log.filterMap plainRows? = [(c, db)] ∧ r = (serveStatement P t c db).1 := by
  obtain ⟨c₀, s₀, l₀, rfl, h₀⟩ := Program.plays_call h
  obtain ⟨c, s, l₁, rfl, h₁⟩ := Program.plays_call h₀
  obtain ⟨c₂, s₂, l₂, rfl, h₂⟩ := Program.plays_call h₁
  obtain ⟨rfl, hr⟩ := Program.plays_ret h₂
  cases hr
  exact ⟨c, s.committed, rfl, rfl⟩

/-- A statement that returns rows was answered on these rows. -/
theorem serveStatement_tuples {t : Statement} {c : Choice} {db : Database} {rows : List t.Row}
    (h : (serveStatement P t c db).1 = .tuples rows) : (t.exec P c.message db).2 = .tuples rows := by
  unfold serveStatement at h
  split at h
  · cases h
  · exact h

/-- **What `progress` returns**: its total, count and most recent problem on the rows of the first query, the
    streak on those of the second, and the completed problems on those of the third. -/
theorem plays_progress {value : UserProgress}
    (h : Program.Plays (serveClients P) ((ProfileCall.progress userId).onConnection P i) log
      (.ret (.inl (.ok value)))) :
    ∃ c₁ db₁ c₂ db₂ c₃ db₃, log.filterMap plainRows? = [(c₁, db₁), (c₂, db₂), (c₃, db₃)] ∧
      value = { userProgress P db₂.clock userId db₁ with
        currentStreakDays := streak P db₂.clock (acceptedOf userId db₂)
        completedProblems := (userProgress P db₂.clock userId db₃).completedProblems } := by
  obtain ⟨l, l', result, rfl, h, hret⟩ := Program.plays_bind h
  obtain ⟨rfl, hresult⟩ := Program.plays_ret hret
  cases hresult
  rw [List.append_nil]
  obtain ⟨l₁, l, r₁, rfl, h₁, h⟩ := Program.plays_bind (show Program.Plays _ (_ >>= _) _ _ from h)
  -- The three queries run one after the other, each on the database of its own moment.
  obtain ⟨c₁, db₁, hl₁, hr₁⟩ := plays_query h₁
  match r₁ with
  | .none => cases (Program.plays_ret h).2
  | .failed state message => cases (Program.plays_ret h).2
  | .command => cases (Program.plays_ret h).2
  | .tuples [] => cases (Program.plays_ret h).2
  | .tuples (activity :: _) =>
      obtain ⟨l₂, l, r₂, rfl, h₂, h⟩ := Program.plays_bind (show Program.Plays _ (_ >>= _) _ _ from h)
      obtain ⟨c₂, db₂, hl₂, hr₂⟩ := plays_query h₂
      match r₂ with
      | .none => cases (Program.plays_ret h).2
      | .failed state message => cases (Program.plays_ret h).2
      | .command => cases (Program.plays_ret h).2
      | .tuples [] => cases (Program.plays_ret h).2
      | .tuples (streakDays :: _) =>
          obtain ⟨l₃, l, r₃, rfl, h₃, h⟩ :=
            Program.plays_bind (show Program.Plays _ (_ >>= _) _ _ from h)
          obtain ⟨c₃, db₃, hl₃, hr₃⟩ := plays_query h₃
          match r₃ with
          | .none => cases (Program.plays_ret h).2
          | .failed state message => cases (Program.plays_ret h).2
          | .command => cases (Program.plays_ret h).2
          | .tuples rows =>
              -- Only here is a value returned, and it is put together from all three answers.
              obtain ⟨rfl, hvalue⟩ := Program.plays_ret h
              cases hvalue
              cases serveStatement_tuples hr₁.symm
              cases serveStatement_tuples hr₂.symm
              cases serveStatement_tuples hr₃.symm
              refine ⟨c₁, db₁, c₂, db₂, c₃, db₃, ?_, rfl⟩
              simp only [List.filterMap_append, hl₁, hl₂, hl₃]
              rfl

end queries

/-! ## Runs -/

section runs
variable {ι : Type} [DecidableEq ι] {P : Platform} {i : ι} {h : ProfileHistory ι} {p p' : ProfilePool ι}

theorem profileControl_shared {b : ProfileControl ι} (hb : profileControl P b p = some p') :
    p'.shared.committed.submissions = p.shared.committed.submissions := by
  cases b with
  | pass elapsed =>
      cases hb
      rfl
  | begin j call =>
      unfold profileControl at hb
      dsimp only at hb
      split at hb <;> cases hb <;> rfl

theorem profileControl_gives (P : Platform) (b : ProfileControl ι) (p p' : ProfilePool ι) (i : ι)
    (h : profileControl P b p = some p') : p'.thread i = (begunProfile P b i).getD (p.thread i) := by
  cases b with
  | pass elapsed =>
      cases h
      rfl
  | begin j call =>
      have hp' : p' = ⟨p.shared, Function.update p.thread j (call.onConnection P j)⟩ := by
        unfold profileControl at h
        dsimp only at h
        split at h <;> cases h <;> rfl
      subst hp'
      by_cases hji : j = i
      · subst hji
        simp [begunProfile]
      · simp [begunProfile, hji, Function.update_of_ne (Ne.symm hji)]

/-- A client runs the program of its last call. -/
theorem given_lastCall {db₀ : Database} {call : ProfileCall} (hcall : lastCall i h = some call) :
    given (begunProfile P) (idleProfiles ι db₀) i h = call.onConnection P i := by
  induction h with
  | nil => cases hcall
  | cons l h ih =>
      obtain ⟨s, e⟩ := l
      cases e with
      | call j c x => exact ih hcall
      | control b =>
          cases b with
          | pass elapsed => exact ih hcall
          | begin j call' =>
              simp only [lastCall] at hcall
              simp only [given, begunProfile]
              by_cases hji : j = i
              · rw [if_pos hji] at hcall ⊢
                cases hcall
                rfl
              · rw [if_neg hji] at hcall ⊢
                exact ih hcall

/-- A call of any client adds at most the query that it makes. -/
theorem queriesOf_call (s : Clients ι) (j : ι) (c : Choice) (x : Exchange (ClientWire ι)) :
    queriesOf P i ((s, .call j c x) :: h) = queriesOf P i h ∨
      queriesOf P i ((s, .call j c x) :: h) = queriesOf P i h ++ [(c, s.committed)] := by
  have hasked : asked (begunProfile P) i ((s, .call j c x) :: h)
      = if j = i then asked (begunProfile P) i h ++ [⟨x.request, c, s⟩]
        else asked (begunProfile P) i h := rfl
  simp only [queriesOf, hasked]
  by_cases hji : j = i
  · rw [if_pos hji, List.filterMap_append]
    cases hquery : plainRows? (⟨x.request, c, s⟩ : Program.Asked (ClientWire ι) Choice (Clients ι)) with
    | none =>
        refine Or.inl ?_
        simp [hquery]
    | some y =>
        refine Or.inr ?_
        have hy : y = (c, s.committed) := by
          unfold plainRows? at hquery
          split at hquery
          · exact (Option.some.inj hquery).symm
          · cases hquery
        simp [hquery, hy]
  · rw [if_neg hji]
    exact Or.inl rfl

/-- A client reads the progress of a user once it has sent the first query of it, until it has sent the
    third. -/
theorem readsProgressOf_of {userId : Int} (hcall : lastCall i h = some (.progress userId))
    (hpos : 0 < (queriesOf P i h).length) (hlt : (queriesOf P i h).length < 3) :
    readsProgressOf P i h = some userId := by
  simp only [readsProgressOf, hcall]
  rw [if_pos ⟨hpos, hlt⟩]

/-- The first three queries of a `progress` were answered on the same accepted submissions, and until the
    third these are still the accepted ones. -/
structure Together (P : Platform) (userId : Int) (queries : List (Choice × Database)) (db : Database) :
    Prop where
  same : ∀ x ∈ queries.take 3, ∀ y ∈ queries.take 3, acceptedOf userId x.2 = acceptedOf userId y.2
  current : queries.length < 3 → ∀ x ∈ queries, acceptedOf userId x.2 = acceptedOf userId db

theorem together_nil (userId : Int) (db : Database) : Together P userId [] db where
  same _ hx := absurd hx List.not_mem_nil
  current _ _ hx := absurd hx List.not_mem_nil

/-- A query on the current rows goes together with those before it. -/
theorem Together.query {userId : Int} {queries : List (Choice × Database)} {db : Database}
    (h : Together P userId queries db) (c : Choice) : Together P userId (queries ++ [(c, db)]) db := by
  by_cases hlength : queries.length < 3
  · have hcurrent : ∀ x ∈ queries ++ [(c, db)], acceptedOf userId x.2 = acceptedOf userId db := by
      intro x hx
      rcases List.mem_append.mp hx with hx | hx
      · exact h.current hlength x hx
      · rw [List.mem_singleton.mp hx]
    refine ⟨fun x hx y hy => ?_, fun _ => hcurrent⟩
    exact (hcurrent x (List.mem_of_mem_take hx)).trans (hcurrent y (List.mem_of_mem_take hy)).symm
  · have htake : (queries ++ [(c, db)]).take 3 = queries.take 3 :=
      List.take_append_of_le_length (by omega)
    refine ⟨by rw [htake]; exact h.same, fun hlt => ?_⟩
    rw [List.length_append] at hlt
    omega

/-- A step that keeps the accepted submissions while they matter keeps the queries together. -/
theorem Together.step {userId : Int} {queries : List (Choice × Database)} {db db' : Database}
    (h : Together P userId queries db)
    (hkept : 0 < queries.length → queries.length < 3 → acceptedOf userId db' = acceptedOf userId db) :
    Together P userId queries db' where
  same := h.same
  current hlt x hx := (h.current hlt x hx).trans (hkept (List.length_pos_of_mem hx) hlt).symm

/-- **One step** of a run that keeps accepted submissions keeps the queries of every `progress` together. -/
theorem together_step {l : Clients ι × ProfileEvent ι}
    (ih : ∀ i userId, lastCall i h = some (.progress userId) →
      Together P userId (queriesOf P i h) p.shared.committed)
    (hguard : AcceptedKept P h p l) (hstep : Watched (serveClients P) (profileControl P) p l p') (i : ι)
    (userId : Int) (hcall : lastCall i (l :: h) = some (.progress userId)) :
    Together P userId (queriesOf P i (l :: h)) p'.shared.committed := by
  have hkept := hguard i
  obtain ⟨s, e⟩ := l
  obtain ⟨hs, hstep⟩ := hstep
  subst hs
  cases hstep with
  | @call j q k c hq =>
      have hcall' : lastCall i h = some (.progress userId) := hcall
      -- After the query, the step itself has kept the accepted submissions.
      have hqueries : Together P userId
          (queriesOf P i ((p.shared, .call j c ⟨q, (serveClients P q c p.shared).1⟩) :: h))
          p.shared.committed := by
        rcases queriesOf_call p.shared j c ⟨q, (serveClients P q c p.shared).1⟩ with hsame | hmore
        · rw [hsame]
          exact ih i userId hcall'
        · rw [hmore]
          exact (ih i userId hcall').query c
      refine hqueries.step ?_
      intro hpos hlt
      exact hkept userId (readsProgressOf_of hcall hpos hlt)
  | @control p' b hb =>
      have hrows : acceptedOf userId p'.shared.committed = acceptedOf userId p.shared.committed := by
        unfold acceptedOf
        rw [profileControl_shared hb]
      cases b with
      | pass elapsed => exact (ih i userId hcall).step fun _ _ => hrows
      | begin j call =>
          by_cases hji : j = i
          · have hnone : queriesOf P i ((p.shared, .control (.begin j call)) :: h) = [] := by
              simp [queriesOf, asked, begunProfile, hji]
            rw [hnone]
            exact together_nil userId _
          · have hsame : queriesOf P i ((p.shared, .control (.begin j call)) :: h) = queriesOf P i h := by
              simp [queriesOf, asked, begunProfile, hji]
            rw [hsame]
            simp only [lastCall, if_neg hji] at hcall
            exact (ih i userId hcall).step fun _ _ => hrows

/-- The queries of every `progress` go together, throughout a run. -/
theorem together_of_run {db₀ : Database}
    (hrun : Guarded (AcceptedKept P) (Watched (serveClients P) (profileControl P)) (idleProfiles ι db₀) h
      p) (i : ι) (userId : Int) (hcall : lastCall i h = some (.progress userId)) :
    Together P userId (queriesOf P i h) p.shared.committed := by
  induction hrun generalizing i userId with
  | start => cases hcall
  | next _ hguard hstep ih => exact together_step ih hguard hstep i userId hcall

/-! ## One state -/

/-- The progress is that of the rows that one of the queries was answered on, on the day of one of them; so
    there are not more completed problems than accepted submissions, and no streak without one. -/
structure OneState (P : Platform) (userId : Int) (queries : List (Choice × Database))
    (value : UserProgress) : Prop where
  described : ∃ c db c' db', (c, db) ∈ queries ∧ (c', db') ∈ queries ∧
    value = userProgress P db'.clock userId db
  completed : (value.completedProblems.length : Int) ≤ value.acceptedSubmissions
  streak : 0 < value.currentStreakDays → 0 < value.acceptedSubmissions

theorem oneState_of_described {userId : Int} {queries : List (Choice × Database)} {value : UserProgress}
    (h : ∃ c db c' db', (c, db) ∈ queries ∧ (c', db') ∈ queries ∧
      value = userProgress P db'.clock userId db) : OneState P userId queries value := by
  refine ⟨h, ?_, ?_⟩
  · obtain ⟨c, db, c', db', -, -, rfl⟩ := h
    exact completed_le_accepted P db'.clock userId db
  · obtain ⟨c, db, c', db', -, -, rfl⟩ := h
    exact streak_accepted

/-- **When a profile describes one state.** In every run of clients that read profiles and create, retry,
    complete and fail submissions, in any interleaving of their commands and with any failures: if every
    step that comes after the first query of a `progress` and before its third leaves it as it was which
    submissions of the user are accepted, then every `progress` that has returned a profile describes a
    single state. -/
theorem progress_describes_one_state {db₀ : Database} {userId : Int} {value : UserProgress}
    (hrun : Guarded (AcceptedKept P) (Watched (serveClients P) (profileControl P)) (idleProfiles ι db₀) h
      p)
    (hcall : lastCall i h = some (.progress userId)) (hret : p.thread i = .ret (.inl (.ok value))) :
    OneState P userId (queriesOf P i h) value := by
  have hplays := plays_of_run (profileControl_gives P) hrun i
  rw [given_lastCall hcall, hret] at hplays
  obtain ⟨c₁, db₁, c₂, db₂, c₃, db₃, hqueries, rfl⟩ := plays_progress hplays
  have hqueries : queriesOf P i h = [(c₁, db₁), (c₂, db₂), (c₃, db₃)] := hqueries
  have htogether := together_of_run hrun i userId hcall
  rw [hqueries] at htogether ⊢
  have h₂ : acceptedOf userId db₂ = acceptedOf userId db₁ :=
    htogether.same (c₂, db₂) (by simp) (c₁, db₁) (by simp)
  have h₃ : acceptedOf userId db₃ = acceptedOf userId db₁ :=
    htogether.same (c₃, db₃) (by simp) (c₁, db₁) (by simp)
  refine oneState_of_described ⟨c₁, db₁, c₂, db₂, by simp, by simp, ?_⟩
  simp only [userProgress, h₂, h₃]

end runs

/-! ### A completion in between -/

/-- User 7 has one submission, which is running. -/
def oneRunning : Database :=
  (Changes.mk (some ⟨1, "a-plus-b", "python", "pass", "running", none, 0, none, some 7, none, none⟩)
    none none).apply (.initial 0)

instance (h : ProfileHistory Bool) (p : ProfilePool Bool) (l : Clients Bool × ProfileEvent Bool) :
    Decidable (AcceptedKept .plain h p l) :=
  inferInstanceAs (Decidable (∀ i, ∀ userId ∈ readsProgressOf .plain i (l :: h),
    acceptedOf userId (rowsAfter .plain p.shared l.2) = acceptedOf userId p.shared.committed))

/-- Client `false` reads the progress of user 7. After `before` of its nine calls, client `true` completes the
    submission. -/
def readAndComplete (before : Nat) : List (Bool × Choice ⊕ ProfileControl Bool) :=
  let calls : Bool → Nat → List (Bool × Choice ⊕ ProfileControl Bool) :=
    fun i n => List.replicate n (.inl (i, .calm))
  [.inr (.begin false (.progress 7)), .inr (.begin true (.client (.complete 1 .accepted none)))]
    ++ calls false before ++ calls true 3 ++ calls false (9 - before)

def playedProfile
    (guard : ProfileHistory Bool → ProfilePool Bool → Clients Bool × ProfileEvent Bool → Prop)
    [∀ h p l, Decidable (guard h p l)] (before : Nat) : Option (ProfileHistory Bool × ProfilePool Bool) :=
  watch (serveClients .plain) (profileControl .plain) guard (readAndComplete before) []
    (idleProfiles Bool oneRunning)

/-- **A profile of two states.** The submission is completed after the first query: the profile tells of one
    completed problem and of no accepted submission. -/
theorem progress_of_two_states : ¬ ∀ (P : Platform) (db₀ : Database) (h : ProfileHistory Bool)
    (p : ProfilePool Bool) (i : Bool) (userId : Int) (value : UserProgress),
    Run (Watched (serveClients P) (profileControl P)) (idleProfiles Bool db₀) h p →
    lastCall i h = some (.progress userId) → p.thread i = .ret (.inl (.ok value)) →
    OneState P userId (queriesOf P i h) value := by
  intro hclaim
  have hplayed : (playedProfile (fun _ _ _ => True) 3).isSome = true := by decide
  have hrun := guarded_of_watch .start (Option.some_get hplayed).symm
  have hone := hclaim .plain oneRunning ((playedProfile (fun _ _ _ => True) 3).get hplayed).1
    ((playedProfile (fun _ _ _ => True) 3).get hplayed).2 false 7 _ hrun rfl rfl
  exact absurd hone.completed (by decide)

/-- Where it is completed before the first query, everything tells of it. -/
theorem progress_of_one_state : ∃ (h : ProfileHistory Bool) (p : ProfilePool Bool) (value : UserProgress),
    p.thread false = .ret (.inl (.ok value)) ∧ value.acceptedSubmissions = 1 ∧
      value.currentStreakDays = 1 ∧ OneState .plain 7 (queriesOf .plain false h) value := by
  have hplayed : (playedProfile (AcceptedKept .plain) 0).isSome = true := by decide
  have hrun := guarded_of_watch .start (Option.some_get hplayed).symm
  have hone := @progress_describes_one_state Bool _ .plain false
    ((playedProfile (AcceptedKept .plain) 0).get hplayed).1
    ((playedProfile (AcceptedKept .plain) 0).get hplayed).2 oneRunning 7 _ hrun rfl rfl
  exact ⟨_, ((playedProfile (AcceptedKept .plain) 0).get hplayed).2, _, rfl, rfl, rfl, hone⟩

end AlgorithmTrainer
