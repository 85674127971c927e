import AlgorithmTrainer.Auth.History

/-!
# `Auth.Accounts` — the tables agree with the history

`UsersAgree` and `SessionsAgree` are the invariant of the auth service: what the users' table holds is what
the history set, and a session is there exactly for each token that was issued and not logged out since.
Both are kept by every step, by `AuthStep.effect` alone.

What `current_user` and `login` answer is then a function of the history.
-/

namespace AlgorithmTrainer

open Interaction Transition Relational PostgreSQLAuthService

def sessionLifetime : Timestamp := sessionLifetimeSeconds * second

/-! ## The invariant -/

/-- The users: valid names that differ when folded, the passwords that were set last, and as
    administrators those whom `ensure_admin` returned. -/
structure UsersAgree (P : Platform) (h : List AuthEvent) (db : Database) : Prop where
  names : ∀ u ∈ db.users, ValidName u.username
  unique : ∀ u ∈ db.users, ∀ u' ∈ db.users, asciiFold u.username = asciiFold u'.username → u = u'
  passwords : ∀ u ∈ db.users, ∃ salt p, u.passwordHash = (P.passwordHash salt p).val ∧
    passwordOf h (asciiFold u.username) = some p ∧ 8 ≤ byteSize p ∧ byteSize p ≤ 128
  admins : ∀ u ∈ db.users, u.isAdmin = true ↔ ∃ e ∈ h, e.promotes = some u.id
  known : ∀ e ∈ h, ∀ id, e.promotes = some id → ∃ u ∈ db.users, u.id = id
  ids : ∀ u ∈ db.users, u.id < db.sequences.users

/-- The sessions: one for each token that was issued and not logged out since. -/
structure SessionsAgree (P : Platform) (h : List AuthEvent) (db : Database) : Prop where
  issued : ∀ t, t ≠ "" → ∀ id time, issuedTo h t = some (id, time) ↔
    ∃ s ∈ db.sessions, s.tokenHash = pgTokenHash P t ∧ s.userId = id ∧
      s.expiresAt = time + sessionLifetime
  nonempty : issuedTo h "" = none
  unique : ∀ s ∈ db.sessions, ∀ s' ∈ db.sessions, s.tokenHash = s'.tokenHash → s = s'
  owners : ∀ s ∈ db.sessions, ∃ u ∈ db.users, u.id = s.userId
  ids : ∀ s ∈ db.sessions, s.id < db.sequences.sessions

section invariant
variable {P : Platform} {h : List AuthEvent} {db db' : Database} {e : AuthEvent}

theorem passwordOf_cons_kept (hs : e.sets = none) (name : String) :
    passwordOf (e :: h) name = passwordOf h name := by
  rw [passwordOf_cons, AuthEvent.setsFor, hs]
  rfl

theorem passwordOf_cons_set {name p : String} (hs : e.sets = some (name, p)) :
    passwordOf (e :: h) name = some p := by
  rw [passwordOf_cons, AuthEvent.setsFor, hs, Option.bind_some, if_pos rfl]
  rfl

theorem passwordOf_cons_other {name name' p : String} (hs : e.sets = some (name, p))
    (hne : name ≠ name') : passwordOf (e :: h) name' = passwordOf h name' := by
  rw [passwordOf_cons, AuthEvent.setsFor, hs, Option.bind_some, if_neg hne]
  rfl

/-- Users are never removed, and keep their ids and names. -/
theorem AuthEffect.user_kept (he : AuthEffect P db e db') {u : UserRow} (hu : u ∈ db.users) :
    ∃ u' ∈ db'.users, u'.id = u.id ∧ u'.username = u.username := by
  cases he.users with
  | kept h => exact ⟨u, h ▸ hu, rfl, rfl⟩
  | added row salt p h => exact ⟨u, h ▸ Table.mem_insert_of_mem hu, rfl, rfl⟩
  | promoted row salt n p hrow h =>
      by_cases hid : u.id = row.id
      · obtain rfl := Table.eq_of_key hu hrow hid
        exact ⟨promotedRow u _, by rw [h]; exact Table.mem_put_self hu rfl, rfl, rfl⟩
      · exact ⟨u, h ▸ Table.mem_put.mpr (Or.inl ⟨hu, hid⟩), rfl, rfl⟩

theorem UsersAgree.initial (hu : db.users = .empty) : UsersAgree P [] db := by
  have hnone : ∀ u, u ∉ db.users := fun u hmem => Table.not_mem_empty u (hu ▸ hmem)
  exact ⟨fun u hu => absurd hu (hnone u), fun u hu => absurd hu (hnone u),
    fun u hu => absurd hu (hnone u), fun u hu => absurd hu (hnone u), fun e he => (by cases he),
    fun u hu => absurd hu (hnone u)⟩

/-- The users agree with the history after a step that set the row of one user. -/
theorem UsersAgree.set_row (hdb : UsersAgree P h db) (he : AuthEffect P db e db') {new : UserRow}
    {salt : Nat} {p : String} (hnew : new ∈ db'.users)
    (hmem : ∀ u ∈ db'.users, u = new ∨
      (u ∈ db.users ∧ u.id ≠ new.id ∧ asciiFold u.username ≠ asciiFold new.username))
    (hs : e.sets = some (asciiFold new.username, p)) (hname : ValidName new.username)
    (hhash : new.passwordHash = (P.passwordHash salt p).val)
    (hpassword : 8 ≤ byteSize p ∧ byteSize p ≤ 128) (hid : new.id < db'.sequences.users)
    (hpromotes : ∀ id, e.promotes = some id → id = new.id)
    (hadmin : new.isAdmin = true ↔ ∃ e' ∈ e :: h, e'.promotes = some new.id) :
    UsersAgree P (e :: h) db' where
  names u hu := by
    rcases hmem u hu with rfl | ⟨hu, -, -⟩
    · exact hname
    · exact hdb.names u hu
  -- two rows with one folded name: the new row is the only one with its name
  unique u hu u' hu' heq := by
    rcases hmem u hu with rfl | ⟨hu, -, hne⟩
    · rcases hmem u' hu' with rfl | ⟨-, -, hne'⟩
      · rfl
      · exact absurd heq.symm hne'
    · rcases hmem u' hu' with rfl | ⟨hu', -, -⟩
      · exact absurd heq hne
      · exact hdb.unique u hu u' hu' heq
  -- the password of the new row was set just now, and those of the others are as they were
  passwords u hu := by
    rcases hmem u hu with rfl | ⟨hu, -, hne⟩
    · exact ⟨salt, p, hhash, passwordOf_cons_set hs, hpassword⟩
    · rw [passwordOf_cons_other hs hne.symm]
      exact hdb.passwords u hu
  admins u hu := by
    rcases hmem u hu with rfl | ⟨hu, hne, -⟩
    · exact hadmin
    · rw [hdb.admins u hu, List.exists_mem_cons_iff]
      refine ⟨Or.inr, fun h => h.resolve_left fun hp => hne (hpromotes _ hp)⟩
  known e' he' id hid := by
    rcases List.mem_cons.mp he' with rfl | he'
    · exact ⟨new, hnew, (hpromotes id hid).symm⟩
    · obtain ⟨u, hu, rfl⟩ := hdb.known e' he' id hid
      obtain ⟨u', hu', hid', -⟩ := he.user_kept hu
      exact ⟨u', hu', hid'⟩
  ids u hu := by
    rcases hmem u hu with rfl | ⟨hu, -, -⟩
    · exact hid
    · exact Int.lt_of_lt_of_le (hdb.ids u hu) he.userIds

/-- The users agree with the history after every step. -/
theorem UsersAgree.step (hP : P.Lawful) (hdb : UsersAgree P h db) (he : AuthEffect P db e db') :
    UsersAgree P (e :: h) db' := by
  cases he.users with
  | kept hu hs hp =>
      refine ⟨hu ▸ hdb.names, hu ▸ hdb.unique, ?_, ?_, ?_, ?_⟩
      · intro u hmem
        rw [passwordOf_cons_kept hs]
        exact hdb.passwords u (hu ▸ hmem)
      · intro u hmem
        rw [hdb.admins u (hu ▸ hmem), List.exists_mem_cons_iff, hp]
        simp
      · intro e' he' id hid
        rw [hu]
        rcases List.mem_cons.mp he' with rfl | he'
        · rw [hp] at hid
          cases hid
        · exact hdb.known e' he' id hid
      · intro u hmem
        exact Int.lt_of_lt_of_le (hdb.ids u (hu ▸ hmem)) he.userIds
  | added row salt p hu hs hp hname hhash hpassword hid hfresh =>
      have hkey : Keyed.key row ∉ db.users.rows.map Keyed.key := by
        rintro hin
        obtain ⟨u, hmem, heq⟩ := List.mem_map.mp hin
        exact (hfresh u hmem).1 heq
      refine hdb.set_row he (hu ▸ Table.mem_insert.mpr (Or.inr ⟨rfl, hkey⟩)) ?_ hs hname
        hhash hpassword hid ?_ ?_
      · intro u hmem
        rw [hu] at hmem
        rcases Table.mem_insert.mp hmem with hmem | ⟨rfl, -⟩
        -- what is fresh under `lower` is fresh under folding, since both names are in ASCII
        · refine Or.inr ⟨hmem, (hfresh u hmem).1, fun heq => (hfresh u hmem).2 ?_⟩
          rw [(hdb.names u hmem).lower hP, hname.lower hP, heq]
        · exact Or.inl rfl
      · intro id hid
        rw [hp] at hid
        split at hid <;> cases hid
        rfl
      · -- nobody with this id can have been promoted before
        have hnobody : ¬ ∃ e' ∈ h, e'.promotes = some row.id := by
          rintro ⟨e', he', hpromotes⟩
          obtain ⟨u, hmem, hid'⟩ := hdb.known e' he' row.id hpromotes
          exact (hfresh u hmem).1 hid'
        rw [List.exists_mem_cons_iff, hp]
        simp [hnobody]
  | promoted row salt n p hrow hu hs hp hname hlower hpassword =>
      -- the name that was given differs from the stored one in case at most
      have hfold : asciiFold n = asciiFold row.username := by
        rw [← hname.lower hP, ← (hdb.names row hrow).lower hP, hlower]
      rw [hfold] at hs
      have hnew : promotedRow row (P.passwordHash salt p).val ∈ db'.users := by
        rw [hu]
        exact Table.mem_put_self hrow rfl
      refine hdb.set_row he hnew ?_ hs (hdb.names row hrow) rfl hpassword
        (Int.lt_of_lt_of_le (hdb.ids row hrow) he.userIds) ?_ ?_
      · intro u hmem
        rw [hu] at hmem
        rcases Table.mem_put.mp hmem with ⟨hmem, hne⟩ | ⟨rfl, -⟩
        · refine Or.inr ⟨hmem, hne, fun heq => hne ?_⟩
          obtain rfl := hdb.unique u hmem row hrow heq
          rfl
        · exact Or.inl rfl
      · intro id hid
        exact (Option.some.inj (hp.symm.trans hid)).symm
      · exact ⟨fun _ => ⟨e, List.mem_cons_self, hp⟩, fun _ => rfl⟩

/-! ## Sessions -/

theorem SessionsAgree.initial (hs : db.sessions = .empty) : SessionsAgree P [] db := by
  have hnone : ∀ s, s ∉ db.sessions := fun s hmem => Table.not_mem_empty s (hs ▸ hmem)
  refine ⟨fun t _ id time => ⟨fun h => (by cases h), ?_⟩, rfl, fun s hs => absurd hs (hnone s),
    fun s hs => absurd hs (hnone s), fun s hs => absurd hs (hnone s)⟩
  rintro ⟨s, hmem, -⟩
  exact absurd hmem (hnone s)

theorem pgTokenHash_injective (hP : P.Lawful) {t t' : String}
    (h : pgTokenHash P t = pgTokenHash P t') : t = t' :=
  hP.tokenHash_injective t t' (Subtype.ext h)

theorem tokenEvent_issues {t : String} {x : String × Int × Timestamp} (hi : e.issues = some x) :
    e.tokenEvent t = if x.1 = t then some (some x.2) else none := by
  rw [AuthEvent.tokenEvent, hi]

theorem tokenEvent_revokes {t t' : String} (hi : e.issues = none) (hr : e.revokes = some t') :
    e.tokenEvent t = if t' = t then some none else none := by
  simp only [AuthEvent.tokenEvent, hi, hr, Option.some.injEq]

/-- An event that issues nothing does not issue the empty token. -/
theorem issuedTo_empty (hi : e.issues = none) (hempty : issuedTo h "" = none) :
    issuedTo (e :: h) "" = none := by
  rw [issuedTo_cons, AuthEvent.tokenEvent, hi]
  dsimp only
  split
  · rfl
  · exact hempty

/-- The sessions agree with the history after every step. -/
theorem SessionsAgree.step (hP : P.Lawful) (hdb : SessionsAgree P h db)
    (he : AuthEffect P db e db') : SessionsAgree P (e :: h) db' := by
  have howners : ∀ s ∈ db.sessions, ∃ u ∈ db'.users, u.id = s.userId := by
    intro s hs
    obtain ⟨u, hu, hid⟩ := hdb.owners s hs
    obtain ⟨u', hu', hid', -⟩ := he.user_kept hu
    exact ⟨u', hu', hid'.trans hid⟩
  have hids : ∀ s ∈ db.sessions, s.id < db'.sequences.sessions := fun s hs =>
    Int.lt_of_lt_of_le (hdb.ids s hs) he.sessionIds
  cases he.sessions with
  | kept hsessions hi ht =>
      refine ⟨fun t hne id time => ?_, issuedTo_empty hi hdb.nonempty, hsessions ▸ hdb.unique,
        hsessions ▸ howners, hsessions ▸ hids⟩
      rw [issuedTo_cons, ht t hne, hsessions]
      exact hdb.issued t hne id time
  | removed t₀ hsessions ht hi =>
      have hmem : ∀ s, s ∈ db'.sessions ↔ s ∈ db.sessions ∧ s.tokenHash ≠ pgTokenHash P t₀ := by
        intro s
        rw [hsessions, Table.mem_delete]
        simp
      refine ⟨fun t hne id time => ?_, issuedTo_empty hi hdb.nonempty,
        fun s hs s' hs' => hdb.unique s ((hmem s).mp hs).1 s' ((hmem s').mp hs').1,
        fun s hs => howners s ((hmem s).mp hs).1, fun s hs => hids s ((hmem s).mp hs).1⟩
      rw [issuedTo_cons, tokenEvent_revokes hi ht]
      by_cases h₀ : t₀ = t
      · rw [if_pos h₀]
        refine ⟨fun h => (by cases h), ?_⟩
        rintro ⟨s, hs, hhash, -⟩
        exact absurd (h₀ ▸ hhash) ((hmem s).mp hs).2
      · rw [if_neg h₀, Option.getD_none, hdb.issued t hne]
        -- a session for another token is not removed
        refine exists_congr fun s => ⟨fun ⟨hs, hhash, hrest⟩ => ⟨(hmem s).mpr ⟨hs, ?_⟩, hhash, hrest⟩,
          fun ⟨hs, hrest⟩ => ⟨((hmem s).mp hs).1, hrest⟩⟩
        rw [hhash]
        exact fun heq => h₀ (pgTokenHash_injective hP heq).symm
  | added row token hsessions ht htoken hhash hexpires hid hfresh howner hentitled =>
      have hkey : Keyed.key row ∉ db.sessions.rows.map Keyed.key := by
        intro hin
        obtain ⟨s, hmem, heq⟩ := List.mem_map.mp hin
        exact (hfresh s hmem).1 heq
      have hmem : ∀ s, s ∈ db'.sessions ↔ s ∈ db.sessions ∨ s = row := by
        intro s
        rw [hsessions, Table.mem_insert]
        exact or_congr_right (and_iff_left hkey)
      refine ⟨fun t hne id time => ?_, ?_, fun s hs s' hs' heq => ?_, fun s hs => ?_, fun s hs => ?_⟩
      · rw [issuedTo_cons, tokenEvent_issues ht]
        by_cases h₀ : token = t
        · -- the new session is the only one for this token
          subst h₀
          rw [if_pos rfl, Option.getD_some]
          constructor
          · intro heq
            cases heq
            exact ⟨row, (hmem row).mpr (Or.inr rfl), hhash, rfl, hexpires⟩
          · rintro ⟨s, hs, hhash', huser, hexp⟩
            rcases (hmem s).mp hs with hs | rfl
            · exact absurd (hhash'.trans hhash.symm) (hfresh s hs).2
            · have htime : db.clock = time := add_right_cancel (hexpires.symm.trans hexp)
              rw [huser, htime]
        · rw [if_neg h₀, Option.getD_none, hdb.issued t hne]
          refine exists_congr fun s => ⟨fun ⟨hs, hrest⟩ => ⟨(hmem s).mpr (Or.inl hs), hrest⟩, ?_⟩
          rintro ⟨hs, hhash', hrest⟩
          rcases (hmem s).mp hs with hs | rfl
          · exact ⟨hs, hhash', hrest⟩
          · exact absurd (pgTokenHash_injective hP (hhash.symm.trans hhash')) h₀
      · rw [issuedTo_cons, tokenEvent_issues ht, if_neg htoken]
        exact hdb.nonempty
      · rcases (hmem s).mp hs with hs | rfl
        · rcases (hmem s').mp hs' with hs' | rfl
          · exact hdb.unique s hs s' hs' heq
          · exact absurd heq (hfresh s hs).2
        · rcases (hmem s').mp hs' with hs' | rfl
          · exact absurd heq.symm (hfresh s' hs').2
          · rfl
      · rcases (hmem s).mp hs with hs | rfl
        · exact howners s hs
        · exact howner
      · rcases (hmem s).mp hs with hs | rfl
        · exact hids s hs
        · exact hid

/-- The whole invariant, in every state of every history. -/
theorem agree_of_run (hP : P.Lawful) {db₀ : Database} (hu : db₀.users = .empty)
    (hs : db₀.sessions = .empty) (hrun : Run (AuthStep P) db₀ h db) :
    UsersAgree P h db ∧ SessionsAgree P h db :=
  hrun.invariant (I := fun h db => UsersAgree P h db ∧ SessionsAgree P h db)
    ⟨.initial hu, .initial hs⟩
    fun _ _ _ _ hdb _ hstep => ⟨hdb.1.step hP hstep.effect, hdb.2.step hP hstep.effect⟩

/-! ## What the service answers -/

/-- The users a token's digest leads to, where the sessions agree with the history. -/
theorem sessionUsers_iff (hdb : SessionsAgree P h db) {hash : String} {row : UserRow} :
    db.sessionUsers hash = [row] ↔ row ∈ db.users ∧ ∃ s ∈ db.sessions, s.tokenHash = hash ∧
      s.userId = row.id ∧ db.clock < s.expiresAt := by
  have hselect : ∀ s ∈ db.sessions, s.tokenHash = hash → db.clock < s.expiresAt → ∀ u ∈ db.users,
      u.id = s.userId → db.sessionUsers hash = [u] := by
    intro s hs hhash hlive u hu hid
    have hsession : db.sessions.select (fun s => s.tokenHash == hash
        && decide (db.clock < s.expiresAt)) = [s] := by
      refine Table.select_eq_singleton hs (by simp [hhash, hlive]) fun s' hs' hp => ?_
      simp only [Bool.and_eq_true, beq_iff_eq] at hp
      rw [hdb.unique s' hs' s hs (hp.1.trans hhash.symm)]
    have huser : db.users.select (·.id == s.userId) = [u] :=
      Table.select_eq_singleton hu (by simp [hid]) fun u' _ hp => by
        simp only [beq_iff_eq] at hp
        exact hp.trans hid.symm
    unfold Database.sessionUsers
    rw [hsession, List.flatMap_singleton, huser]
  constructor
  · intro heq
    have hmem : row ∈ db.sessionUsers hash := by rw [heq]; exact List.mem_singleton_self _
    obtain ⟨s, hs, hrow⟩ := List.mem_flatMap.mp hmem
    obtain ⟨hs, hp⟩ := Table.mem_select.mp hs
    obtain ⟨hrow, hid⟩ := Table.mem_select.mp hrow
    simp only [Bool.and_eq_true, beq_iff_eq, decide_eq_true_eq] at hp hid
    exact ⟨hrow, s, hs, hp.1, hid.symm, hp.2⟩
  · rintro ⟨hrow, s, hs, hhash, huser, hlive⟩
    exact hselect s hs hhash hlive row hrow huser.symm

/-- `current_user` accepts a token exactly if its digest leads to one user. -/
theorem run_currentUser {t : String} {w : World Choice Database} {user : AuthUser}
    (hcalm : (w.choices 0).failure = none) :
    ((currentUser P t).run (serve P) w).1 = .ok (.ok user) ↔
      t ≠ "" ∧ ∃ row, w.state.sessionUsers (pgTokenHash P t) = [row] ∧ user = pgUser P row := by
  unfold currentUser
  by_cases ht : t = ""
  · simp [ht]
  · simp only [beq_iff_eq, ht, if_false, run_execute, serveStatement, hcalm, Statement.exec,
      text_pgTokenHash, ne_eq, not_false_eq_true, true_and]
    cases w.state.sessionUsers (pgTokenHash P t) with
    | nil => simp
    | cons row rest =>
        cases rest with
        | nil => simp [eq_comm]
        | cons => simp

/-- A token that was never issued has no session. -/
theorem SessionsAgree.fresh (hdb : SessionsAgree P h db) {t : String} (ht : t ≠ "")
    (hnew : issuedTo h t = none) : ∀ s ∈ db.sessions, s.tokenHash ≠ pgTokenHash P t := by
  intro s hs hhash
  have hissued := (hdb.issued t ht s.userId (s.expiresAt - sessionLifetime)).mpr
    ⟨s, hs, hhash, rfl, (sub_add_cancel _ _).symm⟩
  rw [hnew] at hissued
  cases hissued

/-- A login that opened a session was for a user with this name and this password. -/
theorem login_sound (hP : P.Lawful) (hdb : UsersAgree P h db) {dummy n p : String}
    {choices : Nat → Choice} {session : AuthSession} (hascii : isAscii n = true)
    (hnul : '\x00' ∉ n.toList)
    (hok : ((login P dummy n p).run (serve P) ⟨choices, db⟩).1 = .ok (.ok session)) :
    ∃ row ∈ db.users, asciiFold row.username = asciiFold n ∧ passwordOf h (asciiFold n) = some p := by
  obtain ⟨reply, w', hrun, heffect⟩ := login_effect (P := P) dummy n p ⟨choices, db⟩
  rw [hrun] at hok
  cases hok
  cases heffect.sessions with
  | kept _ hi => cases hi
  | removed _ _ _ hi => cases hi
  | added _ _ _ _ _ _ _ _ _ _ hentitled =>
      cases hentitled with
      | @loggedIn _ _ _ _ row hrow _ hlower hverify =>
          have htext : text n = n := cStr_of_not_mem hnul
          rw [htext, (hdb.names row hrow).lower hP, hP.lower_ascii n hascii] at hlower
          obtain ⟨salt, p', hhash, hset, -⟩ := hdb.passwords row hrow
          rw [hhash, cStr_val, hP.verify_exact] at hverify
          subst hverify
          exact ⟨row, hrow, hlower, hlower ▸ hset⟩

/-- A login with the name and the password of a user opens a session for this user, where nothing fails
    and the token is new. What was registered passes the filter of `login`. -/
theorem login_accepts (hP : P.Lawful) (hdb : UsersAgree P h db) {dummy n p : String}
    {choices : Nat → Choice} {row : UserRow} (hascii : isAscii n = true)
    (hnul : '\x00' ∉ n.toList) (hcalm : ∀ i, (choices i).failure = none)
    (hnew : ∀ s ∈ db.sessions, s.id ≠ db.sequences.sessions
      ∧ s.tokenHash ≠ pgTokenHash P (choices 1).token.val)
    (hrow : row ∈ db.users) (hfold : asciiFold row.username = asciiFold n)
    (hset : passwordOf h (asciiFold n) = some p) :
    ((login P dummy n p).run (serve P) ⟨choices, db⟩).1
      = .ok (.ok ⟨pgUser P row, (choices 1).token.val⟩) := by
  obtain ⟨salt, p', hhash, hset', hmin, hmax⟩ := hdb.passwords row hrow
  have hp : p' = p := by
    rw [hfold, hset] at hset'
    exact (Option.some.inj hset').symm
  subst hp
  have hname := hdb.names row hrow
  have hsize : byteSize n = byteSize row.username := by
    rw [← byteSize_asciiFold n, ← hfold, byteSize_asciiFold]
  -- A registered name is within the bounds of the filter, and so is a registered password.
  have hfilter : (n == "" || decide (64 < byteSize n) || p' == "" || decide (128 < byteSize p'))
      = false := by
    have hn : n ≠ "" := by
      rintro rfl
      have := hname.atLeast
      rw [← hsize] at this
      exact absurd this (by decide)
    have hp : p' ≠ "" := by
      rintro rfl
      exact absurd hmin (by decide)
    have := hname.atMost
    simp only [Bool.or_eq_false_iff, beq_eq_false_iff_ne, decide_eq_false_iff_not]
    exact ⟨⟨⟨hn, by omega⟩, hp⟩, by omega⟩
  -- The index on `lower(username)` finds this row and no other.
  have hselect : db.users.select (fun u => P.lower u.username == P.lower (text n)) = [row] := by
    rw [show text n = n from cStr_of_not_mem hnul]
    refine Table.select_eq_singleton hrow ?_ fun u hu hlower => ?_
    · rw [hname.lower hP, hP.lower_ascii n hascii, hfold]
      exact beq_self_eq_true _
    · rw [beq_iff_eq, (hdb.names u hu).lower hP, hP.lower_ascii n hascii, ← hfold] at hlower
      rw [hdb.unique u hu row hrow hlower]
  have hverify : P.verifyPassword (cStr row.passwordHash) p' = true := by
    rw [hhash, cStr_val]
    exact (hP.verify_exact salt p' p').mpr rfl
  unfold login
  rw [if_neg (by rw [hfilter]; exact Bool.false_ne_true)]
  simp only [run_execute, serveStatement, hcalm, Statement.exec, hselect, Option.elim, hverify]
  exact run_newSession_calm (hcalm 2) ⟨row, hrow, rfl⟩ hnew

/-- A login with the name and the password of a user opens a session, by the history. -/
theorem login_complete (hP : P.Lawful) (hdb : UsersAgree P h db) (hsessions : SessionsAgree P h db)
    {dummy n p : String} {choices : Nat → Choice} (hascii : isAscii n = true)
    (hnul : '\x00' ∉ n.toList) (hcalm : ∀ i, (choices i).failure = none)
    (hnew : issuedTo h (choices 1).token.val = none)
    (hrow : ∃ row ∈ db.users, asciiFold row.username = asciiFold n ∧
      passwordOf h (asciiFold n) = some p) :
    ∃ session, ((login P dummy n p).run (serve P) ⟨choices, db⟩).1 = .ok (.ok session) := by
  obtain ⟨row, hrow, hfold, hset⟩ := hrow
  have hfresh : ∀ s ∈ db.sessions, s.id ≠ db.sequences.sessions
      ∧ s.tokenHash ≠ pgTokenHash P (choices 1).token.val := fun s hs =>
    ⟨Int.ne_of_lt (hsessions.ids s hs), hsessions.fresh (choices 1).token.property hnew s hs⟩
  exact ⟨_, login_accepts hP hdb hascii hnul hcalm hfresh hrow hfold hset⟩

end invariant

/-- **What the service answers, by its history.** In every state of every history of registrations,
    logins, administrator calls, logouts and waiting, from empty tables:

    * a token is accepted, for a user, exactly if it was issued to this user less than the lifetime of a
      session ago and not logged out since; the answer carries the user's administrator flag, which is
      set exactly if an `ensure_admin` has returned this user;
    * a login, where nothing fails and the token is new, succeeds exactly if there is a user whose name
      is the given one, case aside, and the password is the one that was set last for this name;
    * no two users have names that are equal, case aside. -/
theorem auth_history {P : Platform} (hP : P.Lawful) {db₀ db : Database} {h : List AuthEvent}
    (hu : db₀.users = .empty) (hs : db₀.sessions = .empty) (hrun : Run (AuthStep P) db₀ h db) :
    (∀ (t : String) (user : AuthUser) (choices : Nat → Choice), (choices 0).failure = none →
      (((currentUser P t).run (serve P) ⟨choices, db⟩).1 = .ok (.ok user) ↔
        ∃ row ∈ db.users, user = pgUser P row ∧ ∃ time,
          issuedTo h t = some (row.id, time) ∧ db.clock < time + sessionLifetime)) ∧
    (∀ row ∈ db.users, row.isAdmin = true ↔ ∃ e ∈ h, e.promotes = some row.id) ∧
    (∀ (dummy n p : String) (choices : Nat → Choice), isAscii n = true → '\x00' ∉ n.toList →
      (∀ i, (choices i).failure = none) → issuedTo h (choices 1).token.val = none →
      ((∃ session, ((login P dummy n p).run (serve P) ⟨choices, db⟩).1 = .ok (.ok session)) ↔
        ∃ row ∈ db.users, asciiFold row.username = asciiFold n ∧
          passwordOf h (asciiFold n) = some p)) ∧
    ∀ u ∈ db.users, ∀ u' ∈ db.users, asciiFold u.username = asciiFold u'.username → u = u' := by
  obtain ⟨husers, hsessions⟩ := agree_of_run hP hu hs hrun
  refine ⟨fun t user choices hcalm => ?_, husers.admins, fun dummy n p choices hascii hnul hcalm hnew =>
    ⟨fun ⟨_, hok⟩ => login_sound hP husers hascii hnul hok,
      login_complete hP husers hsessions hascii hnul hcalm hnew⟩, husers.unique⟩
  rw [run_currentUser hcalm]
  constructor
  · rintro ⟨ht, row, hrow, rfl⟩
    obtain ⟨hmem, s, hs, hhash, huser, hlive⟩ := (sessionUsers_iff hsessions).mp hrow
    refine ⟨row, hmem, rfl, s.expiresAt - sessionLifetime, ?_, ?_⟩
    · exact (hsessions.issued t ht _ _).mpr ⟨s, hs, hhash, huser, (sub_add_cancel _ _).symm⟩
    · rw [sub_add_cancel]
      exact hlive
  · rintro ⟨row, hmem, rfl, time, hissued, hlive⟩
    have ht : t ≠ "" := by
      rintro rfl
      rw [hsessions.nonempty] at hissued
      cases hissued
    obtain ⟨s, hs, hhash, huser, hexpires⟩ := (hsessions.issued t ht _ _).mp hissued
    refine ⟨ht, row, (sessionUsers_iff hsessions).mpr ⟨hmem, s, hs, hhash, huser, ?_⟩, rfl⟩
    rw [hexpires]
    exact hlive

/-- A registration on the migrated tables. -/
def oneRegistered : Except Exception AuthReply × World Choice Database :=
  ((AuthCall.registerUser "alice" "password").program .plain "").run (serve .plain)
    ⟨fun _ => .calm, .initial 0⟩

def alice : AuthUser := ⟨1, "alice", "0", false⟩

/-- The token of the registration is accepted. -/
theorem auth_history_registered :
    ((currentUser .plain "token").run (serve .plain) ⟨fun _ => .calm, oneRegistered.2.state⟩).1
      = .ok (.ok alice) := by
  have hstep : AuthStep .plain (.initial 0) (.call 0 (.registerUser "alice" "password")
      (.session (.ok ⟨alice, "token"⟩))) oneRegistered.2.state :=
    .call "" (fun _ => .calm) (Prod.ext (by rfl) rfl)
  have hhistory := auth_history Platform.plain_lawful rfl rfl (Run.next .start hstep)
  have hrow : (⟨1, "alice", "password", 0, false⟩ : UserRow) ∈ oneRegistered.2.state.users.rows := by
    decide
  exact (hhistory.1 "token" alice (fun _ => .calm) rfl).mpr
    ⟨_, hrow, rfl, 0, rfl, by decide⟩

end AlgorithmTrainer
