import AlgorithmTrainer.Auth.Accounts

/-!
# `Auth.Administrators` — what becomes of old tokens when an administrator is set

`ensure_admin` sets the password and the administrator flag of an account and leaves its sessions alone,
while `current_user` takes the flag from the account. So a token that was issued before, under an older
password or to an ordinary user, carries administrator rights afterwards. `admin_tokens_rotated` says
when this does not happen: where the account has no live session at the time of the call.
-/

namespace AlgorithmTrainer

open Interaction Transition Relational PostgreSQLAuthService

/-- Every token that is accepted for an administrator was issued by a login with the password of the
    latest `ensure_admin` of the account, after that call. -/
def AdminTokensRotated (P : Platform) (h : List AuthEvent) (db : Database) : Prop :=
  ∀ (since before : List AuthEvent) (time : Timestamp) (n p : String) (user : AuthUser),
    h = since ++ .call time (.ensureAdmin n p) (.user (.ok user)) :: before →
    (∀ e ∈ since, e.promotes ≠ some user.id) →
    ∀ (t : String) (accepted : AuthUser) (choices : Nat → Choice), (choices 0).failure = none →
      ((currentUser P t).run (serve P) ⟨choices, db⟩).1 = .ok (.ok accepted) →
      accepted.isAdmin = true → accepted.id = user.id →
      ∃ time' n' s, .call time' (.login n' p) (.session (.ok s)) ∈ since ∧ s.token = t ∧
        s.user.id = user.id

/-- An `ensure_admin` that succeeds does so while the account of this name has no live session. -/
def PromotesUnused (_ : List AuthEvent) (db : Database) : AuthEvent → Prop
  | .call _ (.ensureAdmin n _) (.user (.ok _)) => ∀ u ∈ db.users,
      asciiFold u.username = asciiFold n → ∀ s ∈ db.sessions, s.userId = u.id → s.expiresAt ≤ db.clock
  | _ => True

/-- What the sessions of an administrator's account are, by the history: the account has the password of
    its latest `ensure_admin`, and its live tokens were issued by logins with it since. -/
def Rotated (h : List AuthEvent) (db : Database) : Prop :=
  ∀ (since before : List AuthEvent) (time : Timestamp) (n p : String) (user : AuthUser),
    h = since ++ .call time (.ensureAdmin n p) (.user (.ok user)) :: before →
    (∀ e ∈ since, e.promotes ≠ some user.id) →
    (∃ u ∈ db.users, u.id = user.id ∧ passwordOf h (asciiFold u.username) = some p) ∧
    ∀ t issued, issuedTo h t = some (user.id, issued) → db.clock < issued + sessionLifetime →
      ∃ time' n' s, .call time' (.login n' p) (.session (.ok s)) ∈ since ∧ s.token = t ∧
        s.user.id = user.id

section rotation
variable {P : Platform} {h : List AuthEvent} {db db' : Database} {e : AuthEvent}

/-- The account that an `ensure_admin` returned has its password, and where it had no live session
    before, it has none now. -/
theorem Rotated.promoted (hP : P.Lawful) (husers : UsersAgree P h db)
    (hsessions : SessionsAgree P h db) {time : Timestamp} {n p : String} {user : AuthUser}
    (hunused : PromotesUnused h db (.call time (.ensureAdmin n p) (.user (.ok user))))
    (he : AuthEffect P db (.call time (.ensureAdmin n p) (.user (.ok user))) db') :
    (∃ u ∈ db'.users, u.id = user.id ∧ passwordOf
      (.call time (.ensureAdmin n p) (.user (.ok user)) :: h) (asciiFold u.username) = some p) ∧
    ∀ t issued, issuedTo (.call time (.ensureAdmin n p) (.user (.ok user)) :: h) t
      = some (user.id, issued) → ¬ db'.clock < issued + sessionLifetime := by
  have hset : ∀ {name : String}, asciiFold n = name →
      passwordOf (.call time (.ensureAdmin n p) (.user (.ok user)) :: h) name = some p :=
    fun hname => passwordOf_cons_set (hname ▸ rfl)
  -- no live session: by the condition if the account was there, and by its fresh id otherwise
  have hlive : (∀ s ∈ db.sessions, s.userId = user.id → s.expiresAt ≤ db.clock) → ∀ t issued,
      issuedTo (.call time (.ensureAdmin n p) (.user (.ok user)) :: h) t = some (user.id, issued) →
      ¬ db'.clock < issued + sessionLifetime := by
    intro hnone t issued hissued hlt
    rw [issuedTo_cons] at hissued
    have ht : t ≠ "" := by
      rintro rfl
      have hempty := hsessions.nonempty
      rw [show AuthEvent.tokenEvent "" _ = none from rfl, Option.getD_none, hempty] at hissued
      cases hissued
    obtain ⟨s, hs, -, huser, hexpires⟩ := (hsessions.issued t ht _ _).mp hissued
    have hle := hnone s hs huser
    rw [hexpires] at hle
    exact absurd (Int.lt_of_le_of_lt he.clock hlt) (Int.not_lt.mpr hle)
  cases he.users with
  | kept _ hs => cases hs
  | added row salt p' hu hs hp hname hhash hpassword hid hfresh =>
      obtain ⟨hfold, rfl⟩ := Prod.mk.inj (Option.some.inj hs)
      have hrow : row.id = user.id := by
        have hid' : some user.id = if row.isAdmin then some row.id else none := hp
        split at hid'
        · exact (Option.some.inj hid').symm
        · cases hid'
      have hnew : row ∈ db'.users := by
        rw [hu]
        refine Table.mem_insert.mpr (Or.inr ⟨rfl, fun hin => ?_⟩)
        obtain ⟨u, hmem, heq⟩ := List.mem_map.mp hin
        exact (hfresh u hmem).1 heq
      refine ⟨⟨row, hnew, hrow, hset hfold⟩, hlive fun s hs huser => ?_⟩
      obtain ⟨u, hmem, hid'⟩ := hsessions.owners s hs
      exact absurd (hid'.trans (huser.trans hrow.symm)) (hfresh u hmem).1
  | promoted row salt n' p' hrow hu hs hp hname hlower hpassword =>
      obtain ⟨hfold, rfl⟩ := Prod.mk.inj (Option.some.inj hs)
      have hid : user.id = row.id := Option.some.inj hp
      have hfold' : asciiFold row.username = asciiFold n := by
        rw [hfold, ← hname.lower hP, ← (husers.names row hrow).lower hP, hlower]
      have hnew : promotedRow row (P.passwordHash salt p).val ∈ db'.users := by
        rw [hu]
        exact Table.mem_put_self hrow rfl
      refine ⟨⟨_, hnew, hid.symm, hset hfold'.symm⟩, hlive fun s hs huser => ?_⟩
      exact hunused row hrow hfold' s hs (huser.trans hid)

/-- The account keeps the password of its latest `ensure_admin` through other events. -/
theorem password_kept (hP : P.Lawful) (husers : UsersAgree P h db) (he : AuthEffect P db e db')
    {u : UserRow} {p : String} (hu : u ∈ db.users) (hp : passwordOf h (asciiFold u.username) = some p)
    (hother : e.promotes ≠ some u.id) :
    ∃ u' ∈ db'.users, u'.id = u.id ∧ passwordOf (e :: h) (asciiFold u'.username) = some p := by
  obtain ⟨u', hu', hid, hname⟩ := he.user_kept hu
  refine ⟨u', hu', hid, ?_⟩
  rw [hname]
  cases he.users with
  | kept _ hs => rw [passwordOf_cons_kept hs, hp]
  | added row _ _ _ hs _ hvalid _ _ _ hfresh =>
      rw [passwordOf_cons_other hs, hp]
      intro hfold
      refine (hfresh u hu).2 ?_
      rw [(husers.names u hu).lower hP, hvalid.lower hP, hfold]
  | promoted row _ n _ hrow _ hs hpromotes hvalid hlower _ =>
      rw [passwordOf_cons_other hs, hp]
      intro hfold
      have hsame : asciiFold u.username = asciiFold row.username := by
        rw [← hfold, ← hvalid.lower hP, ← (husers.names row hrow).lower hP, hlower]
      obtain rfl := husers.unique u hu row hrow hsame
      exact hother hpromotes

/-- A token that an event issues to an existing account was issued by a login with its password. -/
theorem issued_by_login (hP : P.Lawful) (husers : UsersAgree P h db) {u : UserRow} {p token : String}
    {time : Timestamp} (hu : u ∈ db.users) (hp : passwordOf h (asciiFold u.username) = some p)
    (hentitled : Entitled P db u.id e) (hi : e.issues = some (token, u.id, time)) :
    ∃ time' n' s, e = .call time' (.login n' p) (.session (.ok s)) ∧ s.token = token ∧
      s.user.id = u.id := by
  cases hentitled with
  | registered hnobody => exact absurd rfl (hnobody u hu)
  | @loggedIn time' n' p' r row hrow hid _ hverify =>
      obtain rfl := Table.eq_of_key hrow hu hid
      obtain ⟨salt, p'', hhash, hset, -⟩ := husers.passwords row hrow
      rw [hhash, cStr_val, hP.verify_exact] at hverify
      rw [hp] at hset
      cases hset
      subst hverify
      match r with
      | .session (.ok s) =>
          obtain ⟨htoken, hrest⟩ := Prod.mk.inj (Option.some.inj hi)
          exact ⟨time', n', s, rfl, htoken, (Prod.mk.inj hrest).1⟩
      | .session (.error _) => cases hi
      | .user _ => cases hi
      | .done _ => cases hi

theorem Rotated.step (hP : P.Lawful) (hdb : Rotated h db) (husers : UsersAgree P h db)
    (hsessions : SessionsAgree P h db) (hunused : PromotesUnused h db e)
    (he : AuthEffect P db e db') : Rotated (e :: h) db' := by
  intro since before time n p user hsplit hlatest
  cases since with
  | nil =>
      obtain ⟨rfl, rfl⟩ := List.cons.inj hsplit
      obtain ⟨haccount, hnone⟩ := Rotated.promoted hP husers hsessions hunused he
      exact ⟨haccount, fun t issued hissued hlive => absurd hlive (hnone t issued hissued)⟩
  | cons e' since =>
      obtain ⟨rfl, rfl⟩ := List.cons.inj hsplit
      obtain ⟨⟨u, hu, hid, hp⟩, htokens⟩ := hdb since before time n p user rfl
        fun x hx => hlatest x (List.mem_cons_of_mem _ hx)
      have hother : e.promotes ≠ some u.id := hid ▸ hlatest e List.mem_cons_self
      obtain ⟨u', hu', hid', hp'⟩ := password_kept hP husers he hu hp hother
      refine ⟨⟨u', hu', hid'.trans hid, hp'⟩, fun t issued hissued hlive => ?_⟩
      -- What was issued before this event was issued for the right password.
      have hearlier : issuedTo (since ++ .call time (.ensureAdmin n p) (.user (.ok user)) :: before) t
          = some (user.id, issued) → ∃ time' n' s,
            .call time' (.login n' p) (.session (.ok s)) ∈ e :: since ∧ s.token = t ∧
              s.user.id = user.id := by
        intro hissued
        obtain ⟨time', n', s, hmem, hs⟩ :=
          htokens t issued hissued (Int.lt_of_le_of_lt he.clock hlive)
        exact ⟨time', n', s, List.mem_cons_of_mem _ hmem, hs⟩
      rw [issuedTo_cons] at hissued
      cases he.sessions with
      | kept _ hi ht =>
          by_cases hempty : t = ""
          · have hnone := issuedTo_empty hi hsessions.nonempty
            rw [issuedTo_cons, ← hempty, hissued] at hnone
            cases hnone
          · rw [ht t hempty] at hissued
            exact hearlier hissued
      | removed t₀ _ ht hi =>
          rw [tokenEvent_revokes hi ht] at hissued
          split at hissued
          · cases hissued
          · exact hearlier hissued
      -- a new session: whoever opened it gave the password of the user at that moment
      | added row token _ hi _ _ _ _ _ _ hentitled =>
          rw [tokenEvent_issues hi] at hissued
          split at hissued
          · rename_i htoken
            have hrow : row.userId = u.id :=
              (Prod.mk.inj (Option.some.inj hissued)).1.trans hid.symm
            rw [hrow] at hi hentitled
            obtain ⟨time', n', s, rfl, hs, huser⟩ := issued_by_login hP husers hu hp hentitled hi
            exact ⟨time', n', s, List.mem_cons_self, hs.trans htoken, huser.trans hid⟩
          · exact hearlier hissued

end rotation

/-- **Administrator tokens are new where no session was live.** In every history in which each
    `ensure_admin` that succeeds finds the account without a live session, every token that is accepted
    for an administrator was issued by a login with the password of the latest `ensure_admin` of the
    account, after that call. -/
theorem admin_tokens_rotated {P : Platform} (hP : P.Lawful) {db₀ db : Database} {h : List AuthEvent}
    (hu : db₀.users = .empty) (hs : db₀.sessions = .empty)
    (hrun : Guarded PromotesUnused (AuthStep P) db₀ h db) : AdminTokensRotated P h db := by
  obtain ⟨-, hsessions, hrotated⟩ : UsersAgree P h db ∧ SessionsAgree P h db ∧ Rotated h db :=
    hrun.invariant (I := fun h db => UsersAgree P h db ∧ SessionsAgree P h db ∧ Rotated h db)
      ⟨.initial hu, .initial hs, fun since before _ _ _ _ hsplit => by simp at hsplit⟩
      fun _ _ _ _ hdb hunused hstep => ⟨hdb.1.step hP hstep.effect, hdb.2.1.step hP hstep.effect,
        hdb.2.2.step hP hdb.1 hdb.2.1 hunused hstep.effect⟩
  intro since before time n p user hsplit hlatest t accepted choices hcalm haccepted _ hid
  obtain ⟨ht, row, hrow, rfl⟩ := (run_currentUser hcalm).mp haccepted
  obtain ⟨-, s, hs, hhash, huser, hlive⟩ := (sessionUsers_iff hsessions).mp hrow
  have hissued : issuedTo h t = some (user.id, s.expiresAt - sessionLifetime) :=
    (hsessions.issued t ht _ _).mpr
      ⟨s, hs, hhash, huser.trans hid, (sub_add_cancel _ _).symm⟩
  refine (hrotated since before time n p user hsplit hlatest).2 t _ hissued ?_
  rw [sub_add_cancel]
  exact hlive

/-! ## A token that outlives the promotion -/

def adminUser (isAdmin : Bool) : AuthUser := ⟨1, "admin", "0", isAdmin⟩

/-- Run one call where nothing goes wrong. -/
def calmCall (c : AuthCall) (db : Database) : Except Exception AuthReply × World Choice Database :=
  (c.program .plain "").run (serve .plain) ⟨fun _ => .calm, db⟩

theorem calmCall_step {c : AuthCall} {d : Database} {r : AuthReply} (h : (calmCall c d).1 = .ok r) :
    AuthStep .plain d (.call d.clock c r) (calmCall c d).2.state :=
  .call "" (fun _ => .calm) (Prod.ext h rfl)

/-- The name is registered, and then made an administrator with another password. -/
def promotedDatabase : Database :=
  (calmCall (.ensureAdmin "admin" "new-password")
    (calmCall (.registerUser "admin" "old-password") (.initial 0)).2.state).2.state

def promotedHistory : List AuthEvent :=
  [.call 0 (.ensureAdmin "admin" "new-password") (.user (.ok (adminUser true))),
    .call 0 (.registerUser "admin" "old-password") (.session (.ok ⟨adminUser false, "token"⟩))]

/-- **The token of the registration carries administrator rights.** -/
theorem old_token_promoted :
    Run (AuthStep .plain) (.initial 0) promotedHistory promotedDatabase ∧
      ¬ AdminTokensRotated .plain promotedHistory promotedDatabase := by
  have hregister := calmCall_step (c := .registerUser "admin" "old-password") (d := .initial 0)
    (r := .session (.ok ⟨adminUser false, "token"⟩)) rfl
  refine ⟨Run.next (Run.next .start hregister) (calmCall_step rfl), fun hrotated => ?_⟩
  obtain ⟨time', n', s, hmem, -⟩ := hrotated [] _ 0 "admin" "new-password" (adminUser true) rfl
    (by simp) "token" (adminUser true) (fun _ => .calm) rfl rfl rfl rfl
  cases hmem

/-- The account is made an administrator first, and then logged in to. -/
def loggedInDatabase : Database :=
  (calmCall (.login "admin" "new-password")
    (calmCall (.ensureAdmin "admin" "new-password") (.initial 0)).2.state).2.state

def loggedInHistory : List AuthEvent :=
  [.call 0 (.login "admin" "new-password") (.session (.ok ⟨adminUser true, "token"⟩)),
    .call 0 (.ensureAdmin "admin" "new-password") (.user (.ok (adminUser true)))]

theorem admin_tokens_rotated_login :
    AdminTokensRotated .plain loggedInHistory loggedInDatabase := by
  have hpromote := calmCall_step (c := .ensureAdmin "admin" "new-password") (d := .initial 0)
    (r := .user (.ok (adminUser true))) rfl
  have hempty : PromotesUnused [] (.initial 0) (.call 0 (.ensureAdmin "admin" "new-password")
      (.user (.ok (adminUser true)))) := by
    intro u hu
    exact absurd hu (Table.not_mem_empty u)
  exact admin_tokens_rotated Platform.plain_lawful rfl rfl
    (.next (.next .start hempty hpromote) trivial (calmCall_step rfl))

end AlgorithmTrainer
