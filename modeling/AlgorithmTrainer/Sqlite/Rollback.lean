import AlgorithmTrainer.Sqlite.Sharing

/-!
# `Sqlite.Rollback` — what a `ROLLBACK` on the shared connection takes back

The invariant is `Sharing`: what the calls wrote stands in the current tables, and while a `retry` is inside
of its transaction with nobody else having written, also in the tables that a `ROLLBACK` would go back to. One
lemma says for each request that it keeps the invariant; `nothing_undone` is the run.
-/

namespace AlgorithmTrainer

open Interaction Interaction.Pool Transition Relational

/-! ## The invariant -/

section invariant
variable {ι : Type} [DecidableEq ι] {strftime : Timestamp → String} {calls : ι → SharedCall}
  {h : SharedHistory ι} {φ : ι → SharingPhase} {s : SqliteState} {i : ι} {c : SqliteChoice}
  {db db' db'' : SqliteDatabase}

theorem Spares.refl : Spares strftime i h db db := ⟨fun _ _ => Iff.rfl, fun _ _ => Iff.rfl⟩

theorem Spares.symm (hs : Spares strftime i h db db') : Spares strftime i h db' db :=
  ⟨fun r hr => (hs.submissions r hr).symm, fun a ha => (hs.audits a ha).symm⟩

theorem Spares.trans (hs : Spares strftime i h db db') (hs' : Spares strftime i h db' db'') :
    Spares strftime i h db db'' :=
  ⟨fun r hr => (hs.submissions r hr).trans (hs'.submissions r hr),
    fun a ha => (hs.audits a ha).trans (hs'.audits a ha)⟩

/-- A longer history has more rows that the call may have written. -/
theorem Spares.cons (hs : Spares strftime i h db db') (l : SqliteState × SharedEvent ι) :
    Spares strftime i (l :: h) db db' where
  submissions r hr := hs.submissions r fun l' hl' => hr l' (List.mem_cons_of_mem l hl')
  audits a ha := hs.audits a fun l' hl' => ha l' (List.mem_cons_of_mem l hl')

@[simp] theorem wroteBy_self (x : Exchange SqliteConnection) :
    wroteBy strftime i (s, .call i c x) = s.wrote strftime x := if_pos rfl

theorem wroteBy_other {j : ι} (hji : j ≠ i) (x : Exchange SqliteConnection) :
    wroteBy strftime i (s, .call j c x) = .none := if_neg hji

/-- Who asks whether a step wrote what stands gets the rows or none. -/
theorem wroteBy_stand {j : ι} {x : Exchange SqliteConnection} (hw : (s.wrote strftime x).Stand db) :
    (wroteBy strftime i (s, .call j c x)).Stand db := by
  by_cases hji : j = i
  · subst hji
    rwa [wroteBy_self]
  · rw [wroteBy_other hji]
    exact WrittenRows.none_stand

/-- A statement of the call that only adds rows. -/
theorem Added.spares {x : Exchange SqliteConnection} (ha : Added (s.wrote strftime x) db db') :
    Spares strftime i ((s, .call i c x) :: h) db db' where
  submissions r hr := by
    rw [ha.submissions]
    exact (or_iff_left (wroteBy_self (i := i) x ▸ hr _ List.mem_cons_self)).symm
  audits a hleft := by
    rw [ha.audits]
    exact (or_iff_left (wroteBy_self (i := i) x ▸ hleft _ List.mem_cons_self)).symm

theorem othersWrote_self {x : Exchange SqliteConnection} (hx : x.request ≠ .begin) :
    othersWrote strftime i ((s, .call i c x) :: h) = othersWrote strftime i h := by
  rw [othersWrote, if_pos rfl]
  obtain ⟨q, r⟩ := x
  cases q with
  | begin => exact absurd rfl hx
  | _ => rfl

theorem othersWrote_other {j : ι} {x : Exchange SqliteConnection} (hji : j ≠ i) :
    othersWrote strftime i ((s, .call j c x) :: h) = false ↔
      s.wrote strftime x = .none ∧ othersWrote strftime i h = false := by
  rw [othersWrote, if_neg hji, Bool.or_eq_false_iff, bne_eq_false_iff_eq]

/-- What a `ROLLBACK` of the call would go back to: a database where what the others wrote stands, and where
    only rows of the call are missing. -/
structure Recoverable (strftime : Timestamp → String) (i : ι) (h : SharedHistory ι)
    (φ : ι → SharingPhase) (committed current : SqliteDatabase) : Prop where
  stands : ∀ j, j ≠ i → φ j ≠ .undone → ∀ l ∈ h, (wroteBy strftime j l).Stand committed
  spares : Spares strftime i h committed current

/-- **The invariant of the shared connection.** -/
structure Sharing (strftime : Timestamp → String) (calls : ι → SharedCall) (h : SharedHistory ι)
    (φ : ι → SharingPhase) (s : SqliteState) : Prop where
  retries : ∀ i, (calls i).isRetry = true → φ i ≠ .single
  owner : ∀ i j, φ i = .inside → φ j = .inside → i = j
  working : ∀ i, φ i = .inside → ∃ db, s.session.working = some db
  stands : ∀ i, φ i ≠ .undone → ∀ l ∈ h, (wroteBy strftime i l).Stand s.session.current
  recoverable : ∀ i, φ i = .inside → othersWrote strftime i h = false →
    Recoverable strftime i h φ s.session.committed s.session.current
  spared : ∀ i, (calls i).isRetry = true → ∀ s' c x, (s', .call i c x) ∈ h →
    Spares strftime i h s'.session.current (tablesAfter strftime s' c x.request)

theorem sharing_start (hφ : ∀ i, φ i = (calls i).start) : Sharing strftime calls [] φ s := by
  have houtside : ∀ i, φ i ≠ .inside := by
    intro i hi
    rw [hφ i, SharedCall.start] at hi
    split at hi <;> cases hi
  constructor
  · intro i hretry
    rw [hφ i, SharedCall.start, if_pos hretry]
    intro hsingle
    cases hsingle
  · exact fun i _ hi => absurd hi (houtside i)
  · exact fun i hi => absurd hi (houtside i)
  · exact fun _ _ _ hmem => absurd hmem List.not_mem_nil
  · exact fun i hi => absurd hi (houtside i)
  · exact fun _ _ _ _ _ hmem => absurd hmem List.not_mem_nil

/-- What the rows that were written need to stand after one more request. -/
theorem Sharing.stands_cons {x : Exchange SqliteConnection} (hJ : Sharing strftime calls h φ s)
    (hkeeps : s.session.current.rows.Stand db) (hnew : (s.wrote strftime x).Stand db) {j : ι}
    (hj : φ j ≠ .undone) {l : SqliteState × SharedEvent ι} (hmem : l ∈ (s, .call i c x) :: h) :
    (wroteBy strftime j l).Stand db := by
  rcases List.mem_cons.mp hmem with rfl | hmem
  · exact wroteBy_stand hnew
  · exact (hJ.stands j hj l hmem).trans hkeeps

/-- What a `retry` has spared after one more request. -/
theorem Sharing.spared_cons {q : SqliteRequest} {r : q.Reply} (hJ : Sharing strftime calls h φ s)
    (hnew : (calls i).isRetry = true →
      Spares strftime i ((s, .call i c ⟨q, r⟩) :: h) s.session.current (tablesAfter strftime s c q))
    {j : ι} (hj : (calls j).isRetry = true) {s' : SqliteState} {c' : SqliteChoice}
    {x' : Exchange SqliteConnection} (hmem : (s', Event.call j c' x') ∈ (s, Event.call i c ⟨q, r⟩) :: h) :
    Spares strftime j ((s, .call i c ⟨q, r⟩) :: h) s'.session.current
      (tablesAfter strftime s' c' x'.request) := by
  rcases List.mem_cons.mp hmem with heq | hmem
  · cases heq
    exact hnew hj
  · exact (hJ.spared j hj _ _ _ hmem).cons _

/-- Either a statement failed, or it was executed on the current tables. -/
theorem serve_execute_cases (strftime : Timestamp → String) (t : SqliteStatement) (c : SqliteChoice)
    (s : SqliteState) :
    (s.wrote strftime ⟨.execute t, (serveSqlite strftime (.execute t) c s).1⟩ = .none ∧
      (serveSqlite strftime (.execute t) c s).2 = s) ∨
    ∃ rows db, t.exec (strftime s.clock) s.session.current = some (rows, db) ∧
      s.wrote strftime ⟨.execute t, (serveSqlite strftime (.execute t) c s).1⟩
        = t.wrote (strftime s.clock) s.session.current rows ∧
      (serveSqlite strftime (.execute t) c s).2 = { s with session := s.session.write db } := by
  cases hfault : c.fault with
  | some fault =>
      left
      cases fault <;> simp only [serveSqlite, hfault, SqliteState.wrote, and_self]
  | none =>
      cases hexec : t.exec (strftime s.clock) s.session.current with
      | none =>
          left
          simp only [serveSqlite, hfault, hexec, SqliteState.wrote, and_self]
      | some result =>
          obtain ⟨rows, db⟩ := result
          right
          refine ⟨rows, db, rfl, ?_, ?_⟩
          · simp only [serveSqlite, hfault, hexec, SqliteState.wrote]
          · simp only [serveSqlite, hfault, hexec]

/-- **A statement**, outside of a transaction of the call or inside of it. -/
theorem Sharing.execute {t : SqliteStatement} (hJ : Sharing strftime calls h φ s)
    (hallowed : sharingProtocol.allowed (φ i) (.execute t)) :
    Sharing strftime calls
      ((s, .call i c ⟨.execute t, (serveSqlite strftime (.execute t) c s).1⟩) :: h) φ
      (serveSqlite strftime (.execute t) c s).2 := by
  -- Who sends it: a call that needs no transaction, or the one whose transaction is open.
  have hsent : t.ofCall = true ∧ (φ i = .single ∨ φ i = .inside ∧ t.ofRetry = true) := by
    cases hφ : φ i with
    | single =>
        rw [hφ] at hallowed
        exact ⟨hallowed, .inl rfl⟩
    | inside =>
        rw [hφ] at hallowed
        have hretry : t.ofRetry = true := hallowed
        refine ⟨?_, .inr ⟨rfl, hretry⟩⟩
        cases t <;> first | rfl | cases hretry
    | ready | done | undone =>
        rw [hφ] at hallowed
        exact hallowed.elim
  obtain ⟨hcall, hphase⟩ := hsent
  have hexecuted : Executed (s.wrote strftime ⟨.execute t, (serveSqlite strftime (.execute t) c s).1⟩)
      s.session.current (serveSqlite strftime (.execute t) c s).2.session.current := by
    rcases serve_execute_cases strftime t c s with ⟨hw, hs⟩ | ⟨rows, db, hexec, hw, hs⟩
    · rw [hw, hs]
      exact .nothing
    · rw [hw, hs]
      simpa using Executed.exec hcall hexec
  have hadded : t.ofRetry = true →
      Added (s.wrote strftime ⟨.execute t, (serveSqlite strftime (.execute t) c s).1⟩)
        s.session.current (serveSqlite strftime (.execute t) c s).2.session.current := by
    intro hretry
    rcases serve_execute_cases strftime t c s with ⟨hw, hs⟩ | ⟨rows, db, hexec, hw, hs⟩
    · rw [hw, hs]
      exact .nothing
    · rw [hw, hs]
      simpa using Added.exec hretry hexec
  have hopen : ∀ db, s.session.working = some db →
      (serveSqlite strftime (.execute t) c s).2.session.committed = s.session.committed ∧
        ∃ db', (serveSqlite strftime (.execute t) c s).2.session.working = some db' := by
    intro db hdb
    rcases serve_execute_cases strftime t c s with ⟨-, hs⟩ | ⟨rows, db', -, -, hs⟩
    · rw [hs]
      exact ⟨rfl, db, hdb⟩
    · rw [hs]
      show (s.session.write db').committed = _ ∧ ∃ d, (s.session.write db').working = some d
      rw [Session.write_open hdb]
      exact ⟨rfl, db', rfl⟩
  constructor
  · exact hJ.retries
  · exact hJ.owner
  · intro j hj
    obtain ⟨db, hdb⟩ := hJ.working j hj
    exact (hopen db hdb).2
  · exact fun j hj _ hmem => hJ.stands_cons hexecuted.keeps hexecuted.stands hj hmem
  · intro j hj hothers
    obtain ⟨db, hdb⟩ := hJ.working j hj
    obtain ⟨hcommitted, -⟩ := hopen db hdb
    rw [hcommitted]
    by_cases hij : i = j
    · subst hij
      rw [othersWrote_self (by simp)] at hothers
      have hbase := hJ.recoverable i hj hothers
      have hretry : t.ofRetry = true := by
        rcases hphase with hsingle | ⟨-, hretry⟩
        · rw [hj] at hsingle
          cases hsingle
        · exact hretry
      refine ⟨fun k hk hundone l hmem => ?_, (hbase.spares.cons _).trans (hadded hretry).spares⟩
      rcases List.mem_cons.mp hmem with rfl | hmem
      · rw [wroteBy_other (Ne.symm hk)]
        exact WrittenRows.none_stand
      · exact hbase.stands k hk hundone l hmem
    · -- A statement of another call, which has written nothing.
      obtain ⟨hnone, hothers⟩ := (othersWrote_other hij).mp hothers
      have hbase := hJ.recoverable j hj hothers
      rw [hexecuted.silent hnone]
      refine ⟨fun k hk hundone l hmem => ?_, hbase.spares.cons _⟩
      rcases List.mem_cons.mp hmem with rfl | hmem
      · exact wroteBy_stand (hnone ▸ WrittenRows.none_stand)
      · exact hbase.stands k hk hundone l hmem
  · refine fun j hj _ _ _ hmem => hJ.spared_cons (fun hretry => ?_) hj hmem
    rcases hphase with hsingle | ⟨-, hinserts⟩
    · exact absurd hsingle (hJ.retries i hretry)
    · exact (hadded hinserts).spares

/-- A request that writes nothing and leaves the current tables: what is to be shown is who is inside of a
    transaction now, and what a `ROLLBACK` would go back to. -/
theorem Sharing.turn {q : SqliteRequest} {r : q.Reply} {ψ : SharingPhase} {s' : SqliteState}
    (hJ : Sharing strftime calls h φ s) (hw : s.wrote strftime ⟨q, r⟩ = .none)
    (hcurrent : s'.session.current = s.session.current)
    (hafter : tablesAfter strftime s c q = s.session.current) (hψ : ψ ≠ .single) (hφ : φ i ≠ .undone)
    (howner : ∀ j k, Function.update φ i ψ j = .inside → Function.update φ i ψ k = .inside → j = k)
    (hworking : ∀ j, Function.update φ i ψ j = .inside → ∃ db, s'.session.working = some db)
    (hrecoverable : ∀ j, Function.update φ i ψ j = .inside →
      othersWrote strftime j ((s, .call i c ⟨q, r⟩) :: h) = false →
      Recoverable strftime j ((s, .call i c ⟨q, r⟩) :: h) (Function.update φ i ψ) s'.session.committed
        s'.session.current) :
    Sharing strftime calls ((s, .call i c ⟨q, r⟩) :: h) (Function.update φ i ψ) s' := by
  constructor
  · intro j hj
    by_cases hji : j = i
    · subst hji
      rwa [Function.update_self]
    · rw [Function.update_of_ne hji]
      exact hJ.retries j hj
  · exact howner
  · exact hworking
  · intro j hj _ hmem
    have hundone : φ j ≠ .undone := by
      by_cases hji : j = i
      · exact hji ▸ hφ
      · rwa [Function.update_of_ne hji] at hj
    rw [hcurrent]
    exact hJ.stands_cons WrittenRows.rows_stand (hw ▸ WrittenRows.none_stand) hundone hmem
  · exact hrecoverable
  · exact fun j hj _ _ _ hmem => hJ.spared_cons (fun _ => hafter ▸ Spares.refl) hj hmem

/-- What a `ROLLBACK` would go back to, after one more request that wrote nothing. -/
theorem Recoverable.cons {j : ι} {x : Exchange SqliteConnection} {ψ : SharingPhase}
    (hbase : Recoverable strftime j h φ db db') (hw : s.wrote strftime x = .none) (hφ : φ i ≠ .undone) :
    Recoverable strftime j ((s, .call i c x) :: h) (Function.update φ i ψ) db db' where
  stands k hk hundone l hmem := by
    have hundone : φ k ≠ .undone := by
      by_cases hki : k = i
      · exact hki ▸ hφ
      · rwa [Function.update_of_ne hki] at hundone
    rcases List.mem_cons.mp hmem with rfl | hmem
    · exact wroteBy_stand (hw ▸ WrittenRows.none_stand)
    · exact hbase.stands k hk hundone l hmem
  spares := hbase.spares.cons _

/-- **`BEGIN`.** It fails, or opens a transaction that goes back to the current tables. -/
theorem Sharing.begin (hJ : Sharing strftime calls h φ s) (hφ : φ i = .ready) :
    Sharing strftime calls ((s, .call i c ⟨.begin, (serveSqlite strftime .begin c s).1⟩) :: h)
      (Function.update φ i (sharingProtocol.next (φ i) .begin (serveSqlite strftime .begin c s).1))
      (serveSqlite strftime .begin c s).2 := by
  have hundone : φ i ≠ .undone := by
    rw [hφ]
    intro h
    cases h
  have hcases : (∃ message, serveSqlite strftime .begin c s = (some message, s)) ∨
      s.session.working = none ∧ serveSqlite strftime .begin c s
        = (none, { s with session := ⟨s.session.committed, some s.session.committed⟩ }) := by
    cases hfault : c.fault with
    | some fault => exact .inl ⟨c.message, by simp only [serveSqlite, hfault]⟩
    | none =>
        cases hworking : s.session.working with
        | some db => exact .inl ⟨c.message, by simp only [serveSqlite, hfault, Session.begin, hworking]⟩
        | none => exact .inr ⟨rfl, by simp only [serveSqlite, hfault, Session.begin, hworking]⟩
  rcases hcases with ⟨message, hserve⟩ | ⟨hidle, hserve⟩
  · rw [hserve, hφ]
    have hinside : ∀ j, Function.update φ i .done j = .inside → j ≠ i ∧ φ j = .inside := by
      intro j hj
      by_cases hji : j = i
      · subst hji
        rw [Function.update_self] at hj
        cases hj
      · exact ⟨hji, by rwa [Function.update_of_ne hji] at hj⟩
    refine hJ.turn rfl rfl (by rw [tablesAfter, hserve]) (fun h => by cases h) hundone ?_ ?_ ?_
    · exact fun j k hj hk => hJ.owner j k (hinside j hj).2 (hinside k hk).2
    · exact fun j hj => hJ.working j (hinside j hj).2
    · intro j hj hothers
      obtain ⟨hji, hj⟩ := hinside j hj
      exact (hJ.recoverable j hj ((othersWrote_other (Ne.symm hji)).mp hothers).2).cons rfl hundone
  · -- Nobody else is inside of a transaction.
    have halone : ∀ j, φ j ≠ .inside := by
      intro j hj
      obtain ⟨db, hdb⟩ := hJ.working j hj
      rw [hidle] at hdb
      cases hdb
    have hinside : ∀ j, Function.update φ i .inside j = .inside → j = i := by
      intro j hj
      by_contra hji
      rw [Function.update_of_ne hji] at hj
      exact halone j hj
    have hcurrent : s.session.current = s.session.committed := by
      rw [Session.current, hidle]
      rfl
    rw [hserve, hφ]
    refine hJ.turn rfl hcurrent.symm (by rw [tablesAfter, hserve, hcurrent]; rfl) (fun h => by cases h)
      hundone ?_ ?_ ?_
    · exact fun j k hj hk => (hinside j hj).trans (hinside k hk).symm
    · exact fun _ _ => ⟨_, rfl⟩
    · intro j hj _
      have hbase : Recoverable strftime j h φ s.session.committed s.session.committed := by
        refine ⟨fun k _ hk l hmem => ?_, Spares.refl⟩
        rw [← hcurrent]
        exact hJ.stands k hk l hmem
      exact hbase.cons rfl hundone

/-- **`COMMIT`.** It fails, or closes the transaction. -/
theorem Sharing.commit (hJ : Sharing strftime calls h φ s) (hφ : φ i = .inside) :
    Sharing strftime calls ((s, .call i c ⟨.commit, (serveSqlite strftime .commit c s).1⟩) :: h)
      (Function.update φ i (sharingProtocol.next (φ i) .commit (serveSqlite strftime .commit c s).1))
      (serveSqlite strftime .commit c s).2 := by
  have hundone : φ i ≠ .undone := by
    rw [hφ]
    intro h
    cases h
  obtain ⟨db, hdb⟩ := hJ.working i hφ
  have hcases : (∃ message, serveSqlite strftime .commit c s = (some message, s)) ∨
      serveSqlite strftime .commit c s = (none, { s with session := s.session.commit }) := by
    cases hfault : c.fault with
    | some fault => exact .inl ⟨c.message, by simp only [serveSqlite, hfault]⟩
    | none => exact .inr (by simp only [serveSqlite, hfault, hdb])
  rcases hcases with ⟨message, hserve⟩ | hserve
  -- the COMMIT fails: the transaction stays with this thread
  · have hsame : Function.update φ i .inside = φ := by
      rw [← hφ]
      exact Function.update_eq_self i φ
    rw [hserve, hφ]
    refine hJ.turn rfl rfl (by rw [tablesAfter, hserve]) (fun h => by cases h) hundone ?_ ?_ ?_
    · exact fun j k hj hk => hJ.owner j k (hsame ▸ hj) (hsame ▸ hk)
    · exact fun j hj => hJ.working j (hsame ▸ hj)
    · intro j hj hothers
      have hji : j = i := hJ.owner j i (hsame ▸ hj) hφ
      subst hji
      rw [othersWrote_self (by simp)] at hothers
      exact (hJ.recoverable j hφ hothers).cons rfl hundone
  -- it succeeds: nobody is inside any more
  · have houtside : ∀ j, Function.update φ i .done j ≠ .inside := by
      intro j hj
      by_cases hji : j = i
      · subst hji
        rw [Function.update_self] at hj
        cases hj
      · rw [Function.update_of_ne hji] at hj
        exact hji (hJ.owner j i hj hφ)
    rw [hserve, hφ]
    refine hJ.turn rfl rfl (by rw [tablesAfter, hserve]; rfl) (fun h => by cases h) hundone ?_ ?_ ?_
    · exact fun j _ hj => absurd hj (houtside j)
    · exact fun j hj => absurd hj (houtside j)
    · exact fun j hj => absurd hj (houtside j)

/-- **`ROLLBACK`** of a call that has been the only one to write since its `BEGIN`. -/
theorem Sharing.rollback (hJ : Sharing strftime calls h φ s) (hφ : φ i = .inside)
    (halone : othersWrote strftime i h = false) :
    Sharing strftime calls ((s, .call i c ⟨.rollback, (serveSqlite strftime .rollback c s).1⟩) :: h)
      (Function.update φ i
        (sharingProtocol.next (φ i) .rollback (serveSqlite strftime .rollback c s).1))
      (serveSqlite strftime .rollback c s).2 := by
  obtain ⟨db, hdb⟩ := hJ.working i hφ
  have hserve : serveSqlite strftime .rollback c s
      = (none, { s with session := ⟨s.session.committed, none⟩ }) := by
    simp only [serveSqlite, hdb, Session.rollback]
  have hbase := hJ.recoverable i hφ halone
  have houtside : ∀ j, Function.update φ i .undone j ≠ .inside := by
    intro j hj
    by_cases hji : j = i
    · subst hji
      rw [Function.update_self] at hj
      cases hj
    · rw [Function.update_of_ne hji] at hj
      exact hji (hJ.owner j i hj hφ)
  rw [hserve, hφ]
  show Sharing strftime calls _ (Function.update φ i .undone) _
  constructor
  · intro j hj
    by_cases hji : j = i
    · subst hji
      rw [Function.update_self]
      intro h
      cases h
    · rw [Function.update_of_ne hji]
      exact hJ.retries j hj
  · exact fun j _ hj => absurd hj (houtside j)
  · exact fun j hj => absurd hj (houtside j)
  · intro j hj l hmem
    have hji : j ≠ i := by
      intro hji
      subst hji
      exact hj (Function.update_self ..)
    rw [Function.update_of_ne hji] at hj
    rcases List.mem_cons.mp hmem with rfl | hmem
    · rw [wroteBy_other (Ne.symm hji)]
      exact WrittenRows.none_stand
    · exact hbase.stands j hji hj l hmem
  · exact fun j hj => absurd hj (houtside j)
  · refine fun j hj _ _ _ hmem => hJ.spared_cons (fun _ => ?_) hj hmem
    have hafter : tablesAfter strftime s c .rollback = s.session.committed := by
      rw [tablesAfter, hserve]
      rfl
    rw [hafter]
    exact hbase.spares.symm.cons _

/-- Time that passes changes no table. -/
theorem Sharing.pass (hJ : Sharing strftime calls h φ s) (elapsed : Nat) :
    Sharing strftime calls ((s, .control elapsed) :: h) φ { s with clock := s.clock + elapsed } := by
  have hstand : ∀ {j : ι} {db : SqliteDatabase}, (∀ l ∈ h, (wroteBy strftime j l).Stand db) →
      ∀ l ∈ (s, .control elapsed) :: h, (wroteBy strftime j l).Stand db := by
    intro j db hall l hl
    rcases List.mem_cons.mp hl with rfl | hl
    · exact WrittenRows.none_stand
    · exact hall l hl
  constructor
  · exact hJ.retries
  · exact hJ.owner
  · exact hJ.working
  · exact fun j hj => hstand (hJ.stands j hj)
  · intro j hj hothers
    have hbase := hJ.recoverable j hj hothers
    exact ⟨fun k hk hundone => hstand (hbase.stands k hk hundone), hbase.spares.cons _⟩
  · intro j hj s' c' x' hx
    rcases List.mem_cons.mp hx with heq | hx
    · cases heq
    · exact (hJ.spared j hj s' c' x' hx).cons _

end invariant

/-! ## Runs -/

section runs
variable {ι : Type} [DecidableEq ι] {strftime : Timestamp → String} {limits : PostgreSQLRepositoryLimits}
  {calls : ι → SharedCall} {db : SqliteDatabase} {now : Timestamp} {h : SharedHistory ι}
  {p : SharedPool ι}

theorem next_execute (φ : SharingPhase) (t : SqliteStatement) (r : Stepped t.Row) :
    sharingProtocol.next φ (.execute t) r = φ := by
  cases φ <;> rfl

/-- Every request that its call may send keeps the invariant. -/
theorem Sharing.call {φ : ι → SharingPhase} {s : SqliteState} {i : ι} {c : SqliteChoice} {q : SqliteRequest}
    (hJ : Sharing strftime calls h φ s) (hallowed : sharingProtocol.allowed (φ i) q)
    (halone : q = .rollback → othersWrote strftime i h = false) :
    Sharing strftime calls ((s, .call i c ⟨q, (serveSqlite strftime q c s).1⟩) :: h)
      (Function.update φ i (sharingProtocol.next (φ i) q (serveSqlite strftime q c s).1))
      (serveSqlite strftime q c s).2 := by
  cases q with
  | execute t =>
      rw [next_execute, Function.update_eq_self]
      exact hJ.execute hallowed
  | begin =>
      cases hφ : φ i with
      | ready => exact hφ ▸ hJ.begin hφ
      | single | inside | done | undone =>
          rw [hφ] at hallowed
          exact hallowed.elim
  | commit =>
      cases hφ : φ i with
      | inside => exact hφ ▸ hJ.commit hφ
      | single | ready | done | undone =>
          rw [hφ] at hallowed
          exact hallowed.elim
  | rollback =>
      cases hφ : φ i with
      | inside => exact hφ ▸ hJ.rollback hφ (halone rfl)
      | single | ready | done | undone =>
          rw [hφ] at hallowed
          exact hallowed.elim

theorem sharing_of_run
    (hrun : Guarded (RollsBackAlone strftime) (Watched (serveSqlite strftime) timePasses)
      (sharing limits calls db now) h p) :
    ∃ φ, Sharing strftime calls h φ p.shared ∧
      ∀ i, sharingProtocol.Follows UndoneFails (φ i) (p.thread i) := by
  refine phases_of_watched sharingProtocol UndoneFails (Sharing strftime calls) hrun ?_ ?_ ?_
  · exact ⟨fun i => (calls i).start, sharing_start fun _ => rfl, fun i => (calls i).follows⟩
  · intro h p φ i c q hg hJ hallowed
    refine ⟨trivial, hJ.call hallowed fun hq => ?_⟩
    subst hq
    exact hg i rfl
  · intro h p φ elapsed p' _ hJ hF hp
    cases hp
    exact ⟨φ, hJ.pass elapsed, hF⟩

/-- **Nothing is undone.** In every run of calls on one connection, in any interleaving of their statements
    and with any failures, in which each `ROLLBACK` comes when no other call has written since its `BEGIN`:
    what a call that has returned success wrote is there from then on, and a `retry` that has returned an
    error has changed no row of another call. -/
theorem nothing_undone
    (hrun : Guarded (RollsBackAlone strftime) (Watched (serveSqlite strftime) timePasses)
      (sharing limits calls db now) h p) :
    SuccessStands strftime h p ∧ RetriesSpare strftime calls h p := by
  obtain ⟨φ, hJ, hF⟩ := sharing_of_run hrun
  refine ⟨fun i answer hret hsuccess => hJ.stands i ?_, fun i answer hretry _ _ s c x hx => ?_⟩
  · intro hundone
    have hends := hF i
    rw [hret] at hends
    rw [hends hundone answer rfl] at hsuccess
    cases hsuccess
  · exact hJ.spared i hretry s c x hx

end runs

/-! ### A completion inside of a transaction -/

/-- What becomes of a completed row: nothing. -/
theorem advance_completed {r r' : SqliteSubmissionRow} (hr : r.status = "completed")
    (h : Relation.ReflTransGen SqliteSubmissionRow.Advance r r') : r' = r := by
  induction h with
  | refl => rfl
  | tail _ hlast ih =>
      subst ih
      cases hlast with
      | claimed h | completed h | failed h =>
          rw [hr] at h
          exact absurd h (by decide)

instance (strftime : Timestamp → String) (h : SharedHistory (Fin 4)) (p : SharedPool (Fin 4))
    (l : SqliteState × SharedEvent (Fin 4)) : Decidable (RollsBackAlone strftime h p l) :=
  inferInstanceAs (Decidable (∀ i ∈ rollingBack l.2, othersWrote strftime i h = false))

/-- A submission is created, claimed and completed, and an administrator tries to retry it. -/
def fourCalls : Fin 4 → SharedCall
  | 0 => .create ⟨"a-plus-b", "python", "pass", none⟩
  | 1 => .claimNext
  | 2 => .complete 1 .accepted none
  | 3 => .retry 1 7

/-- The calls send their statements in this order. -/
def playedSharing
    (guard : SharedHistory (Fin 4) → SharedPool (Fin 4) → SqliteState × SharedEvent (Fin 4) → Prop)
    [∀ h p l, Decidable (guard h p l)] (order : List (Fin 4)) :
    Option (SharedHistory (Fin 4) × SharedPool (Fin 4)) :=
  watch (serveSqlite toString) timePasses guard (order.map fun i => .inl (i, .calm)) []
    (sharing .unconfigured fourCalls (.initial []) 0)

theorem guarded_of_played
    {guard : SharedHistory (Fin 4) → SharedPool (Fin 4) → SqliteState × SharedEvent (Fin 4) → Prop}
    [∀ h p l, Decidable (guard h p l)] {order : List (Fin 4)} (h : (playedSharing guard order).isSome = true) :
    Guarded guard (Watched (serveSqlite toString) timePasses) (sharing .unconfigured fourCalls (.initial []) 0)
      ((playedSharing guard order).get h).1 ((playedSharing guard order).get h).2 :=
  guarded_of_watch .start (Option.some_get h).symm

/-- The row of the completed submission. -/
def completedSharing : SqliteSubmissionRow :=
  ⟨1, "a-plus-b", "python", "pass", "completed", some "Accepted", "0", some "0", none, none, none⟩

/-- The worker completes the submission after the `BEGIN` of the `retry`, which finds nothing to retry. -/
theorem played_inside : (playedSharing (fun _ _ _ => True) [0, 1, 3, 2, 3, 3]).isSome = true := by decide

def undoneRun : SharedHistory (Fin 4) × SharedPool (Fin 4) :=
  (playedSharing (fun _ _ _ => True) [0, 1, 3, 2, 3, 3]).get played_inside

/-- The worker completes the submission before the `BEGIN`. -/
theorem played_before : (playedSharing (RollsBackAlone toString) [0, 1, 2, 3, 3, 3]).isSome = true := by decide

/-- **A completion is undone.** The `retry` rolls back the completion, and the submission is running again. -/
theorem completion_undone :
    (¬ ∀ (strftime : Timestamp → String) (limits : PostgreSQLRepositoryLimits) (calls : Fin 4 → SharedCall)
      (db : SqliteDatabase) (now : Timestamp) (h : SharedHistory (Fin 4)) (p : SharedPool (Fin 4)),
      Run (Watched (serveSqlite strftime) timePasses) (sharing limits calls db now) h p →
      SuccessStands strftime h p) ∧
    ¬ ∀ (strftime : Timestamp → String) (limits : PostgreSQLRepositoryLimits) (calls : Fin 4 → SharedCall)
      (db : SqliteDatabase) (now : Timestamp) (h : SharedHistory (Fin 4)) (p : SharedPool (Fin 4)),
      Run (Watched (serveSqlite strftime) timePasses) (sharing limits calls db now) h p →
      RetriesSpare strftime calls h p := by
  have hrun : Run (Watched (serveSqlite toString) timePasses) (sharing .unconfigured fourCalls (.initial []) 0)
      undoneRun.1 undoneRun.2 := guarded_of_played played_inside
  have hwrote : ∃ l ∈ undoneRun.1, (wroteBy toString 2 l).submissions = [completedSharing] := by decide
  have hgone : completedSharing ∉ undoneRun.2.shared.session.current.submissions.rows := by decide
  have hleft : ∀ l ∈ undoneRun.1, completedSharing ∉ (wroteBy toString 3 l).submissions := by decide
  have hcompleted : ∃ answer, undoneRun.2.thread 2 = .ret answer ∧ answer.success = true :=
    ⟨_, rfl, rfl⟩
  have hretried : ∃ answer, undoneRun.2.thread 3 = .ret answer ∧ answer.success = false :=
    ⟨_, rfl, rfl⟩
  have hrollback : ∃ s c x, (s, .call 3 c x) ∈ undoneRun.1 ∧
      completedSharing ∈ s.session.current.submissions.rows ∧
      completedSharing ∉ (tablesAfter toString s c x.request).submissions.rows :=
    ⟨(undoneRun.1.head (by decide)).1, .calm, _, List.mem_cons_self, by decide, by decide⟩
  constructor
  · intro hclaim
    obtain ⟨l, hl, hwrote⟩ := hwrote
    obtain ⟨answer, hret, hsuccess⟩ := hcompleted
    have hstands := hclaim toString .unconfigured fourCalls (.initial []) 0 _ _ hrun 2 answer hret hsuccess l hl
    obtain ⟨r', hr', hadvance⟩ := hstands.submissions completedSharing (hwrote ▸ List.mem_cons_self)
    rw [advance_completed rfl hadvance] at hr'
    exact hgone hr'
  · intro hclaim
    obtain ⟨answer, hret, herror⟩ := hretried
    obtain ⟨s, c, x, hx, hbefore, hafter⟩ := hrollback
    have hspares := hclaim toString .unconfigured fourCalls (.initial []) 0 _ _ hrun 3 answer rfl hret herror
      s c x hx
    exact hafter ((hspares.submissions completedSharing hleft).mp hbefore)

/-- Where the submission is completed before the `BEGIN`, it stays completed. -/
theorem nothing_undone_completed : ∃ (h : SharedHistory (Fin 4)) (p : SharedPool (Fin 4)),
    h.length = 6 ∧ completedSharing ∈ p.shared.session.current.submissions.rows ∧
      SuccessStands toString h p ∧ RetriesSpare toString fourCalls h p :=
  ⟨((playedSharing (RollsBackAlone toString) [0, 1, 2, 3, 3, 3]).get played_before).1,
    ((playedSharing (RollsBackAlone toString) [0, 1, 2, 3, 3, 3]).get played_before).2, rfl, by decide,
    nothing_undone (guarded_of_played played_before)⟩

end AlgorithmTrainer
