import Mathlib.Data.String.Basic
import AlgorithmTrainer.Database.Connection

/-!
# `Database.Migrations` — `apply_migrations`, run by several instances and after crashes

The program command by command, each instance on a session of its own. What the database holds is the list
of everything that was committed to it (`Write`): the tracking table, the text of a migration, a version.
The migrations are those of one directory. An instance may crash after any command, and any command may
fail or take the connection with it; a session that ends gives back its advisory lock and drops its
transaction.

The lock is held from before the first look at the tracking table until the session ends, and a migration's
text is committed together with its version. So what is committed is always a prefix of the sorted
migrations, each with its version, and a further run goes on after that prefix.
-/

namespace AlgorithmTrainer
namespace Migrations

open Interaction Interaction.Pool Transition Relational

/-! ## The directory -/

structure DirectoryEntry where
  name : String
  regular : Bool
  content : String
deriving DecidableEq

/-- `is_regular_file()` and `extension() == ".sql"`. -/
def isMigration (e : DirectoryEntry) : Bool :=
  e.regular && ".sql".toList.isSuffixOf e.name.toList && decide (4 < e.name.toList.length)

/-- `std::ranges::sort` on the paths of one directory. -/
def byName (a b : DirectoryEntry) : Bool := decide (a.name ≤ b.name)

/-- The migrations among the entries of a directory, in the order in which they are looked at. -/
def migrations (entries : List DirectoryEntry) : List DirectoryEntry :=
  orderBy byName (entries.filter isMigration)

/-- The version of a file name: `from_chars` up to the first `'-'`, and positive. -/
def version (name : String) : Option Int :=
  let digits := (name.toList.takeWhile (· != '-')).takeWhile Char.isDigit
  let value := digits.foldl (fun n c => n * 10 + (c.toNat - '0'.toNat)) 0
  if '-' ∈ name.toList ∧ digits ≠ [] ∧ value ≤ 2147483647 ∧ 0 < value then some (value : Int) else none

/-! ## The program -/

inductive MigrationCommand where
  | lock
  | createTracking
  | selectVersion (version : Int)
  | begin
  | run (sql : String)
  | record (version : Int)
  | commit
  | rollback
  | unlock
deriving DecidableEq

/-- What an instance asks of its surroundings. -/
inductive MigrationRequest (ι : Type) where
  | connect (i : ι)
  | exec (i : ι) (command : MigrationCommand)
  | enumerate
  | readFile (file : DirectoryEntry)
  | disconnect (i : ι)

@[reducible] def MigrationRequest.Reply {ι : Type} : MigrationRequest ι → Type
  | .connect _ => Option String
  | .exec _ _ => Result Unit
  | .enumerate => Except String (List DirectoryEntry)
  | .readFile _ => Option String
  | .disconnect _ => Unit

@[reducible] def Surroundings (ι : Type) : Signature := ⟨MigrationRequest ι, MigrationRequest.Reply⟩

section program
variable {ι : Type}

/-- `connection.execute`. -/
def exec (i : ι) (command : MigrationCommand) : Program (Surroundings ι) Unit (Result Unit) :=
  .ask (S := Surroundings ι) (.exec i command)

/-- The loop over the sorted migrations, and the unlock after it: the error, if there is one. -/
def migrateAll (i : ι) : List DirectoryEntry → Program (Surroundings ι) Unit (Option String)
  | [] => do
      let _ ← exec i .unlock
      pure none
  | file :: rest =>
      match version file.name with
      | none => pure (some ("PostgreSQL migration has an invalid numbered filename: " ++ file.name))
      | some number => do
          let applied ← exec i (.selectVersion number)
          if !applied.tuplesOk then
            pure (some ("Could not inspect PostgreSQL migration state: " ++ applied.error))
          else if applied.rows.length ≠ 0 then migrateAll i rest
          else do
            let input ← .ask (S := Surroundings ι) (.readFile file)
            match input with
            | none => pure (some ("PostgreSQL migration file is unavailable: " ++ file.name))
            | some sql => do
                let begun ← exec i .begin
                if !begun.commandOk then
                  pure (some ("Could not begin PostgreSQL migration: " ++ file.name))
                else do
                  let migrated ← exec i (.run (cStr sql))
                  let recorded ← if migrated.commandOk then exec i (.record number) else pure .none
                  let committed ←
                    if migrated.commandOk && recorded.commandOk then exec i .commit else pure .none
                  if !committed.commandOk then do
                    let _ ← exec i .rollback
                    pure (some ("PostgreSQL migration failed: " ++ file.name ++ ": "
                      ++ migrated.error))
                  else migrateAll i rest

/-- What `apply_migrations` does on a valid connection. -/
def migrateConnected (i : ι) : Program (Surroundings ι) Unit (Option String) := do
  let locked ← exec i .lock
  if !locked.tuplesOk then pure (some "Could not acquire the PostgreSQL migration lock")
  else do
    let versions ← exec i .createTracking
    if !versions.commandOk then
      pure (some ("Could not initialize PostgreSQL migration tracking: " ++ versions.error))
    else do
      let listing ← .ask (S := Surroundings ι) .enumerate
      match listing with
      | .error message => pure (some ("Could not enumerate PostgreSQL migrations: " ++ message))
      | .ok entries => migrateAll i (migrations entries)

/-- `apply_migrations`. The connection is closed on every way out. -/
def applyMigrations (i : ι) : Program (Surroundings ι) Unit (Option String) := do
  let invalid ← .ask (S := Surroundings ι) (.connect i)
  let outcome ← match invalid with
    | some error => pure (some ("Could not connect to PostgreSQL: " ++ error))
    | none => migrateConnected i
  let _ ← .ask (S := Surroundings ι) (.disconnect i)
  pure outcome

end program

/-! ## The server -/

/-- Something that was committed: the tracking table, the text of a migration, a version. -/
inductive Write where
  | track
  | run (sql : String)
  | record (version : Int)
deriving DecidableEq

/-- The session of an instance. -/
inductive Session where
  | closed
  | idle
  | block (writes : List Write) (aborted : Bool)
deriving DecidableEq

/-- What is committed, earliest first, who holds the migration lock, and the sessions. -/
structure Server (ι : Type) where
  committed : List Write
  holder : Option ι
  session : ι → Session

/-- What the surroundings decide for a call, where the directory has these entries: the fate of a command,
    the text of an error, whether a rejected `COMMIT` leaves the block open, whether the result of a text is
    that of a command (an empty text's is not, nor a query's), the listing, in any order, and whether a file
    can be read. -/
structure Answer (entries : List DirectoryEntry) where
  fate : Connection.Fate
  message : String
  stays : Bool
  completes : Bool
  listing : Except String { l : List DirectoryEntry // l.Perm entries }
  readable : Bool

/-- Nothing fails. -/
structure Answer.Calm {entries : List DirectoryEntry} (c : Answer entries) : Prop where
  served : c.fate = .served
  completes : c.completes = true
  listed : ∃ l, c.listing = .ok l
  readable : c.readable = true

section server
variable {ι : Type} [DecidableEq ι] {entries : List DirectoryEntry}

namespace Server

/-- What the statements of a session see. -/
def visible (s : Server ι) (i : ι) : List Write :=
  match s.session i with
  | .block writes _ => s.committed ++ writes
  | .closed | .idle => s.committed

def setSession (s : Server ι) (i : ι) (session : Session) : Server ι :=
  { s with session := Function.update s.session i session }

/-- The session ends, and with it its block and its lock. -/
def close (s : Server ι) (i : ι) : Server ι :=
  { s.setSession i .closed with holder := if s.holder = some i then none else s.holder }

/-- A write, in the block or by itself. -/
def write (s : Server ι) (i : ι) (w : Write) : Server ι :=
  match s.session i with
  | .block writes aborted => s.setSession i (.block (writes ++ [w]) aborted)
  | .closed | .idle => { s with committed := s.committed ++ [w] }

/-- The server executes a command, if it can. -/
def serve (s : Server ι) (completes : Bool) (i : ι) : MigrationCommand → Option (Result Unit × Server ι)
  | .lock => some (.tuples [()], { s with holder := some i })
  | .createTracking => some (.command,
      if .track ∈ s.visible i then s else s.write i .track)
  | .selectVersion v =>
      if .track ∈ s.visible i then
        some (.tuples (if .record v ∈ s.visible i then [()] else []), s)
      else none
  | .begin => some (.command, match s.session i with
      | .idle => s.setSession i (.block [] false)
      | .closed | .block _ _ => s)
  | .run sql => some (if completes then .command else .tuples [], s.write i (.run sql))
  | .record v =>
      if .track ∈ s.visible i ∧ .record v ∉ s.visible i then
        some (.command, s.write i (.record v))
      else none
  | .commit => some (.command, match s.session i with
      | .block writes false =>
          { s.setSession i .idle with committed := s.committed ++ writes }
      | .closed | .idle | .block _ true => s.setSession i .idle)
  | .rollback => some (.command, s.setSession i .idle)
  | .unlock => some (.tuples [()],
      { s with holder := if s.holder = some i then none else s.holder })

/-- The server reports an error. -/
def reject (c : Answer entries) (s : Server ι) (i : ι) (command : MigrationCommand) : Server ι :=
  match s.session i, command with
  | .block writes _, .commit => s.setSession i (if c.stays then .block writes true else .idle)
  | .block _ _, .rollback => s.setSession i .idle
  | .block writes _, _ => s.setSession i (.block writes true)
  | .closed, _ | .idle, _ => s

/-- The session is in an aborted block, and this is not the end of it. -/
def refuses (s : Server ι) (i : ι) : MigrationCommand → Bool
  | .commit | .rollback => false
  | _ => match s.session i with
      | .block _ aborted => aborted
      | .closed | .idle => false

/-- What is committed once the connection was lost during a command, executed or not. -/
def afterLoss (s : Server ι) (i : ι) (command : MigrationCommand) (processed : Bool) : List Write :=
  if processed && !s.refuses i command then
    ((s.serve true i command).map fun x => x.2.committed).getD s.committed
  else s.committed

/-- A command of an instance, whatever its fate. -/
def answer (c : Answer entries) (s : Server ι) (i : ι) (command : MigrationCommand) :
    Result Unit × Server ι :=
  if s.session i = .closed then (.failed .fault c.message, s)
  else match c.fate with
    | .lost processed => (.failed .fault c.message,
        { s.close i with committed := s.afterLoss i command processed })
    | .rejected => (.failed .fault c.message, s.reject c i command)
    | .served =>
        if s.refuses i command then (.failed .fault c.message, s.reject c i command)
        else (s.serve c.completes i command).getD (.failed .fault c.message, s.reject c i command)

end Server

/-- The surroundings of the instances. -/
def migrationService (entries : List DirectoryEntry) :
    Service (Surroundings ι) (Answer entries) (Server ι)
  | .connect i, c, s =>
      if c.fate = .served then (none, s.setSession i .idle) else (some c.message, s)
  | .exec i command, c, s => s.answer c i command
  | .enumerate, c, s => (c.listing.map fun l => l.val, s)
  | .readFile file, c, s => (if c.readable then some file.content else none, s)
  | .disconnect i, _, s => ((), s.close i)

/-! ## Instances -/

abbrev Instances (ι : Type) := Pool ι (Surroundings ι) Unit (Option String) (Server ι)

/-- An instance begins to migrate, or crashes. -/
inductive InstanceControl (ι : Type) where
  | begin (i : ι)
  | crash (i : ι)

def instanceControl : InstanceControl ι → Instances ι → Option (Instances ι)
  | .begin i, p =>
      match p.thread i with
      | .call _ _ => none
      | .ret _ | .raise _ => some ⟨p.shared, Function.update p.thread i (applyMigrations i)⟩
  | .crash i, p => some ⟨p.shared.close i, Function.update p.thread i (.raise ())⟩

/-- The server grants the lock while nobody holds it. -/
def LockFree (_ : List (Event ι (Surroundings ι) (Answer entries) (InstanceControl ι)))
    (p : Instances ι) : Event ι (Surroundings ι) (Answer entries) (InstanceControl ι) → Prop
  | .call _ _ ⟨.exec _ .lock, r⟩ => r.tuplesOk = true → p.shared.holder = none
  | _ => True

/-- An empty database, and instances that have not begun. -/
def emptyDatabase (ι : Type) : Server ι := ⟨[], none, fun _ => .closed⟩

def notBegun (ι : Type) : Instances ι := ⟨emptyDatabase ι, fun _ => .raise ()⟩

end server

/-! ## Where an instance is -/

/-- What an instance does next: `inspecting`, and what follows it, with the migration it is at, its version,
    and those that come after it. -/
inductive Stage where
  | outside
  | starting
  | connected
  | locked
  | tracked
  | inspecting (file : DirectoryEntry) (version : Int) (rest : List DirectoryEntry)
  | missing (file : DirectoryEntry) (version : Int) (rest : List DirectoryEntry)
  | read (file : DirectoryEntry) (version : Int) (rest : List DirectoryEntry)
  | begun (file : DirectoryEntry) (version : Int) (rest : List DirectoryEntry)
  | ran (file : DirectoryEntry) (version : Int) (rest : List DirectoryEntry)
  | recorded (file : DirectoryEntry) (version : Int) (rest : List DirectoryEntry)
  | failing
  | unlocking
  | finished
  | ending
  | complete

/-- The loop, before these migrations. -/
def Stage.loop : List DirectoryEntry → Stage
  | [] => .unlocking
  | file :: rest =>
      match version file.name with
      | some v => .inspecting file v rest
      | none => .ending

/-- The command that an instance sends at a stage. -/
def Stage.command : Stage → Option MigrationCommand
  | .connected => some .lock
  | .locked => some .createTracking
  | .inspecting _ v _ => some (.selectVersion v)
  | .read _ _ _ => some .begin
  | .begun file _ _ => some (.run (cStr file.content))
  | .ran _ v _ => some (.record v)
  | .recorded _ _ _ => some .commit
  | .failing => some .rollback
  | .unlocking => some .unlock
  | .outside | .starting | .tracked | .missing _ _ _ | .finished | .ending | .complete => none

/-- The stage after the command. -/
def Stage.next (r : Result Unit) : Stage → Stage
  | .connected => if r.tuplesOk then .locked else .ending
  | .locked => if r.commandOk then .tracked else .ending
  | .inspecting file v rest =>
      if !r.tuplesOk then .ending
      else if r.rows.length ≠ 0 then .loop rest
      else .missing file v rest
  | .read file v rest => if r.commandOk then .begun file v rest else .ending
  | .begun file v rest => if r.commandOk then .ran file v rest else .failing
  | .ran file v rest => if r.commandOk then .recorded file v rest else .failing
  | .recorded _ _ rest => if r.commandOk then .loop rest else .failing
  | .failing => .ending
  | .unlocking => .finished
  | stage => stage

/-- The stage once the connection is closed. -/
def Stage.left : Stage → Stage
  | .finished => .complete
  | _ => .outside

section protocol
variable {ι : Type}

/-- The protocol of an instance, which knows which one it is. -/
def migrating : Protocol (Surroundings ι) (ι × Stage) where
  allowed φ
    | .connect i => i = φ.1 ∧ φ.2 = .starting
    | .exec i command => i = φ.1 ∧ φ.2.command = some command
    | .enumerate => φ.2 = .tracked
    | .readFile file => ∃ v rest, φ.2 = .missing file v rest
    | .disconnect i => i = φ.1
  admits _
    | .readFile file, input => ∀ sql, input = some sql → sql = file.content
    | _, _ => True
  next φ
    | .connect _, (invalid : Option String) =>
        (φ.1, if invalid.isNone then .connected else .ending)
    | .exec _ _, r => (φ.1, φ.2.next r)
    | .enumerate, (.ok entries : Except String (List DirectoryEntry)) =>
        (φ.1, .loop (migrations entries))
    | .enumerate, .error _ => (φ.1, .ending)
    | .readFile _, (some _ : Option String) => match φ.2 with
        | .missing file v rest => (φ.1, .read file v rest)
        | _ => φ
    | .readFile _, none => (φ.1, .ending)
    | .disconnect _, _ => (φ.1, φ.2.left)

/-- Where an instance is that has returned or crashed. -/
def Stopped (φ : ι × Stage) (o : Except Unit (Option String)) : Prop :=
  o = .ok none → φ.2 = .complete

/-- It has nothing more to do than to disconnect. -/
def Inside (i : ι) (φ : ι × Stage) (o : Except Unit (Option String)) : Prop :=
  φ.1 = i ∧ ∃ error, o = .ok error ∧ (error = none → φ.2 = .finished)

theorem exec_follows {i : ι} {stage : Stage} {command : MigrationCommand} {α : Type}
    {Q : ι × Stage → Except Unit α → Prop} {f : Result Unit → Program (Surroundings ι) Unit α}
    (hstage : stage.command = some command)
    (hf : ∀ r, migrating.Follows Q (i, stage.next r) (f r)) :
    migrating.Follows Q (i, stage) (exec i command >>= f) :=
  ⟨⟨rfl, hstage⟩, fun r _ => hf r⟩

theorem return_follows {i : ι} {stage : Stage} (error : String) :
    migrating.Follows (Inside i) (i, stage) (pure (some error)) :=
  ⟨rfl, some error, rfl, fun hnone => by cases hnone⟩

/-- The transaction of one migration. -/
theorem migrateFile_follows {i : ι} {file : DirectoryEntry} {v : Int} {rest : List DirectoryEntry}
    {program : Program (Surroundings ι) Unit (Option String)}
    (hrest : migrating.Follows (Inside i) (i, .loop rest) program) :
    migrating.Follows (Inside i) (i, .read file v rest) (do
      let begun ← exec i .begin
      if !begun.commandOk then
        pure (some ("Could not begin PostgreSQL migration: " ++ file.name))
      else do
        let migrated ← exec i (.run (cStr file.content))
        let recorded ← if migrated.commandOk then exec i (.record v) else pure .none
        let committed ←
          if migrated.commandOk && recorded.commandOk then exec i .commit else pure .none
        if !committed.commandOk then do
          let _ ← exec i .rollback
          pure (some ("PostgreSQL migration failed: " ++ file.name ++ ": " ++ migrated.error))
        else program) := by
  -- Every failure inside of the transaction ends in the rollback.
  have hfailing : ∀ error, migrating.Follows (Inside i) (i, .failing)
      (exec i .rollback >>= fun _ => pure (some error)) :=
    fun error => exec_follows rfl fun _ => return_follows error
  refine exec_follows rfl fun begun => ?_
  simp only [Stage.next]
  cases begun.commandOk with
  | false => exact return_follows _
  | true =>
      refine exec_follows rfl fun migrated => ?_
      simp only [Stage.next]
      cases migrated.commandOk with
      | false => exact hfailing _
      | true =>
          refine exec_follows rfl fun recorded => ?_
          simp only [Stage.next]
          cases recorded.commandOk with
          | false => exact hfailing _
          | true =>
              refine exec_follows rfl fun committed => ?_
              simp only [Stage.next]
              cases committed.commandOk with
              | false => exact hfailing _
              | true => exact hrest

theorem migrateAll_follows (i : ι) (files : List DirectoryEntry) :
    migrating.Follows (Inside i) (i, .loop files) (migrateAll i files) := by
  induction files with
  | nil => exact exec_follows rfl fun _ => ⟨rfl, none, rfl, fun _ => rfl⟩
  | cons file rest ih =>
      cases hv : version file.name with
      | none =>
          simp only [migrateAll, hv]
          exact return_follows _
      | some v =>
          have hloop : Stage.loop (file :: rest) = .inspecting file v rest := by
            simp only [Stage.loop, hv]
          rw [hloop]
          simp only [migrateAll, hv]
          refine exec_follows rfl fun applied => ?_
          simp only [Stage.next]
          by_cases happlied : (!applied.tuplesOk) = true
          · rw [if_pos happlied, if_pos happlied]
            exact return_follows _
          · rw [if_neg happlied, if_neg happlied]
            by_cases hrows : applied.rows.length ≠ 0
            · rw [if_pos hrows, if_pos hrows]
              exact ih
            · rw [if_neg hrows, if_neg hrows]
              refine ⟨⟨v, rest, rfl⟩, fun input hinput => ?_⟩
              cases input with
              | none => exact return_follows _
              | some sql =>
                  cases hinput sql rfl
                  exact migrateFile_follows ih

theorem migrateConnected_follows (i : ι) :
    migrating.Follows (Inside i) (i, .connected) (migrateConnected i) := by
  refine exec_follows rfl fun locked => ?_
  simp only [Stage.next]
  cases locked.tuplesOk with
  | false => exact return_follows _
  | true =>
      refine exec_follows rfl fun versions => ?_
      simp only [Stage.next]
      cases versions.commandOk with
      | false => exact return_follows _
      | true =>
          refine ⟨rfl, fun listing _ => ?_⟩
          cases listing with
          | error message => exact return_follows _
          | ok entries => exact migrateAll_follows i (migrations entries)

theorem applyMigrations_follows (i : ι) :
    migrating.Follows Stopped (i, .starting) (applyMigrations i) := by
  refine ⟨⟨rfl, rfl⟩, fun invalid _ => ?_⟩
  have hdisconnect : ∀ {stage : Stage} {p : Program (Surroundings ι) Unit (Option String)},
      migrating.Follows (Inside i) (i, stage) p → migrating.Follows Stopped (i, stage)
        (p >>= fun outcome =>
          Program.ask (S := Surroundings ι) (.disconnect i) >>= fun _ => pure outcome) := by
    intro stage p hp
    refine hp.bind ?_ ?_
    · rintro ⟨i', stage'⟩ outcome ⟨rfl, error, houtcome, hfinished⟩
      cases houtcome
      refine ⟨rfl, fun _ _ hnone => ?_⟩
      cases hnone
      have hstage : stage' = .finished := hfinished rfl
      rw [hstage]
      rfl
    · rintro φ e ⟨-, error, he, -⟩
      cases he
  cases invalid with
  | some error => exact hdisconnect (return_follows _)
  | none => exact hdisconnect (migrateConnected_follows i)

end protocol

/-! ## What is committed -/

/-- What a migration commits. -/
def fileWrites (file : DirectoryEntry) : List Write :=
  [.run (cStr file.content), .record ((version file.name).getD 0)]

/-- What is committed once there is a tracking table. -/
def tracked (committed : List Write) : List Write :=
  if .track ∈ committed then committed else committed ++ [.track]

/-- What is committed comes from the tracking table and these migrations, which are the first of the
    directory and have valid names. -/
structure Applied (entries applied : List DirectoryEntry) (committed : List Write) : Prop where
  first : applied <+: migrations entries
  valid : ∀ file ∈ applied, (version file.name).isSome = true
  writes : committed = .track :: applied.flatMap fileWrites

/-- Nothing is committed yet, or migrations are applied. -/
def Consistent (entries : List DirectoryEntry) (committed : List Write) : Prop :=
  committed = [] ∨ ∃ applied, Applied entries applied committed

/-- A directory has no name twice, and its migrations no version. -/
structure Directory (entries : List DirectoryEntry) : Prop where
  names : (entries.map (·.name)).Nodup
  versions : ((migrations entries).filterMap fun file => version file.name).Nodup

section files
variable {entries applied done rest : List DirectoryEntry} {committed : List Write}
  {file : DirectoryEntry} {v : Int}

/-- The order of the listing does not matter. -/
theorem migrations_perm {l : List DirectoryEntry} (hnames : (entries.map (·.name)).Nodup)
    (hl : l.Perm entries) : migrations l = migrations entries := by
  have hpairwise : ∀ l, (migrations l).Pairwise fun a b => byName a b = true := fun l =>
    pairwise_orderBy (fun a b => by simpa [byName] using le_total a.name b.name)
      (fun a b c hab hbc => by
        simp only [byName, decide_eq_true_eq] at hab hbc ⊢
        exact le_trans hab hbc) _
  have hperm : (migrations l).Perm (migrations entries) :=
    (List.perm_insertionSort _ _).trans ((hl.filter _).trans (List.perm_insertionSort _ _).symm)
  refine List.Perm.eq_of_pairwise (fun a b ha hb hab hba => ?_) (hpairwise l) (hpairwise entries) hperm
  -- the same name twice would be the same entry
  have hname : a.name = b.name := by
    simp only [byName, decide_eq_true_eq] at hab hba
    exact le_antisymm hab hba
  have hmem : ∀ {x}, x ∈ migrations entries → x ∈ entries := fun hx =>
    (List.mem_filter.mp (mem_orderBy.mp hx)).1
  exact List.inj_on_of_nodup_map hnames (hmem (hperm.mem_iff.mp ha)) (hmem hb) hname

theorem migrations_nodup (hnames : (entries.map (·.name)).Nodup) : (migrations entries).Nodup :=
  (List.perm_insertionSort _ _).nodup_iff.mpr (hnames.of_map.filter _)

theorem mem_fileWrites {w : Write} : w ∈ applied.flatMap fileWrites ↔
    ∃ g ∈ applied, w = .run (cStr g.content) ∨ w = .record ((version g.name).getD 0) := by
  simp [fileWrites]

/-- A version is recorded exactly if its migration is applied. -/
theorem Applied.recorded_iff (h : Applied entries applied committed) :
    .record v ∈ committed ↔ ∃ g ∈ applied, version g.name = some v := by
  rw [h.writes, List.mem_cons, mem_fileWrites]
  constructor
  · rintro (htrack | ⟨g, hg, hrun | hrecord⟩)
    · cases htrack
    · cases hrun
    · obtain ⟨v', hv'⟩ := Option.isSome_iff_exists.mp (h.valid g hg)
      rw [hv'] at hrecord
      cases hrecord
      exact ⟨g, hg, hv'⟩
  · rintro ⟨g, hg, hv⟩
    exact Or.inr ⟨g, hg, Or.inr (by rw [hv]; rfl)⟩

theorem Applied.tracked (h : Applied entries applied committed) : .track ∈ committed := by
  rw [h.writes]
  exact List.mem_cons_self

/-- **At one migration of the loop**, all before it being applied: if its version is recorded, it is
    applied, too; and otherwise nothing but those before it is. -/
theorem Applied.inspect (hdir : Directory entries) (h : Applied entries applied committed)
    (hsplit : done ++ file :: rest = migrations entries) (hdone : done <+: applied)
    (hv : version file.name = some v) :
    (.record v ∈ committed → done ++ [file] <+: applied) ∧
      (.record v ∉ committed → applied = done) := by
  obtain ⟨t, rfl⟩ := hdone
  have hfirst := h.first
  rw [← hsplit, List.prefix_append_right_inj] at hfirst
  cases t with
  | nil =>
      refine ⟨fun hrecorded => ?_, fun _ => List.append_nil done⟩
      obtain ⟨g, hg, hgv⟩ := h.recorded_iff.mp hrecorded
      rw [List.append_nil] at hg
      have hversions := hdir.versions
      rw [← hsplit, List.filterMap_append, List.nodup_append] at hversions
      exact absurd rfl (hversions.2.2 v (List.mem_filterMap.mpr ⟨g, hg, hgv⟩) v
        (List.mem_filterMap.mpr ⟨file, List.mem_cons_self, hv⟩))
  | cons f t =>
      obtain ⟨rfl, -⟩ := List.cons_prefix_cons.mp hfirst
      refine ⟨fun _ => ⟨t, by simp⟩, fun hnew => ?_⟩
      exact absurd (h.recorded_iff.mpr ⟨f, by simp, hv⟩) hnew

/-- One more migration. -/
theorem Applied.snoc (h : Applied entries done committed)
    (hsplit : done ++ file :: rest = migrations entries) (hv : version file.name = some v) :
    Applied entries (done ++ [file])
      (committed ++ [.run (cStr file.content), .record v]) := by
  refine ⟨⟨rest, by rw [← hsplit]; simp⟩, fun g hg => ?_, ?_⟩
  · rcases List.mem_append.mp hg with hg | hg
    · exact h.valid g hg
    · rw [List.mem_singleton.mp hg, hv]
      rfl
  · rw [h.writes]
    simp [fileWrites, hv]

theorem track_mem_tracked (committed : List Write) : .track ∈ tracked committed := by
  unfold tracked
  by_cases htrack : Write.track ∈ committed
  · rw [if_pos htrack]
    exact htrack
  · rw [if_neg htrack]
    simp

/-- Where nothing is committed yet, the tracking table makes it that no migration is applied. -/
theorem Consistent.tracked (h : Consistent entries committed) :
    ∃ applied, Applied entries applied (Migrations.tracked committed) := by
  unfold Migrations.tracked
  rcases h with rfl | ⟨applied, happlied⟩
  · exact ⟨[], List.nil_prefix, fun _ hfile => absurd hfile List.not_mem_nil, rfl⟩
  · rw [if_pos happlied.tracked]
    exact ⟨applied, happlied⟩

/-- What is committed only grows, and there is nothing after the last migration. -/
theorem Applied.stays {committed' : List Write}
    (h : Applied entries (migrations entries) committed) (hgrows : committed <+: committed')
    (hconsistent : Consistent entries committed') :
    Applied entries (migrations entries) committed' := by
  rcases hconsistent with hempty | ⟨applied, happlied⟩
  · rw [hempty, List.prefix_nil] at hgrows
    have htracked := h.tracked
    rw [hgrows] at htracked
    cases htracked
  · have hlen := hgrows.length_le
    have hlength : ∀ files : List DirectoryEntry, (files.flatMap fileWrites).length = 2 * files.length := by
      intro files
      induction files with
      | nil => rfl
      | cons f files ih => simp [fileWrites, ih, Nat.mul_add]
    simp only [h.writes, happlied.writes, List.length_cons, hlength] at hlen
    have hall : applied = migrations entries := happlied.first.eq_of_length_le (by omega)
    exact hall ▸ happlied

end files

/-! ## The invariant -/

section invariant
variable {ι : Type} [DecidableEq ι] {entries : List DirectoryEntry} {s s' : Server ι} {i : ι}
  {stage : Stage}

/-- The instance is at this migration: it holds the lock, and exactly the migrations before this one are
    applied. -/
def AtFile (entries : List DirectoryEntry) (s : Server ι) (i : ι) (file : DirectoryEntry) (v : Int)
    (rest : List DirectoryEntry) : Prop :=
  s.holder = some i ∧ version file.name = some v ∧ ∃ done,
    done ++ file :: rest = migrations entries ∧ Applied entries done s.committed

/-- What an instance may rely on at a stage. -/
def Alive (entries : List DirectoryEntry) (s : Server ι) (i : ι) : Stage → Prop
  | .outside | .starting | .failing | .ending => True
  | .connected => s.session i = .idle
  | .locked => s.session i = .idle ∧ s.holder = some i
  | .tracked => s.session i = .idle ∧ s.holder = some i ∧
      ∃ applied, Applied entries applied s.committed
  | .inspecting file v rest => s.session i = .idle ∧ s.holder = some i ∧
      version file.name = some v ∧ ∃ done applied, done ++ file :: rest = migrations entries ∧
        done <+: applied ∧ Applied entries applied s.committed
  | .missing file v rest | .read file v rest =>
      s.session i = .idle ∧ AtFile entries s i file v rest
  | .begun file v rest => s.session i = .block [] false ∧ AtFile entries s i file v rest
  | .ran file v rest => s.session i = .block [.run (cStr file.content)] false ∧
      AtFile entries s i file v rest
  | .recorded file v rest => s.session i = .block [.run (cStr file.content), .record v] false ∧
      AtFile entries s i file v rest
  | .unlocking | .finished | .complete => Applied entries (migrations entries) s.committed

structure Sound (entries : List DirectoryEntry) (φ : ι → ι × Stage) (s : Server ι) : Prop where
  ids : ∀ i, (φ i).1 = i
  alive : ∀ i, Alive entries s i (φ i).2
  consistent : Consistent entries s.committed

omit [DecidableEq ι] in
theorem alive_loop {rest done applied : List DirectoryEntry} (hsession : s.session i = .idle)
    (hholder : s.holder = some i) (hsplit : done ++ rest = migrations entries)
    (hdone : done <+: applied) (happlied : Applied entries applied s.committed) :
    Alive entries s i (.loop rest) := by
  cases rest with
  | nil =>
      rw [List.append_nil] at hsplit
      have hall : migrations entries = applied := (hsplit ▸ hdone).eq_of_length_le happlied.first.length_le
      show Applied entries (migrations entries) s.committed
      rw [hall]
      exact happlied
  | cons file rest =>
      cases hv : version file.name with
      | none =>
          have hloop : Stage.loop (file :: rest) = .ending := by simp only [Stage.loop, hv]
          rw [hloop]
          trivial
      | some v =>
          have hloop : Stage.loop (file :: rest) = .inspecting file v rest := by
            simp only [Stage.loop, hv]
          rw [hloop]
          exact ⟨hsession, hholder, hv, done, applied, hsplit, hdone, happlied⟩

omit [DecidableEq ι] in
/-- A failed command leads out of the loop. -/
theorem alive_failed {command : MigrationCommand} (halive : Alive entries s i stage)
    (hstage : stage.command = some command) (hs : Consistent entries s'.committed)
    (hgrows : s.committed <+: s'.committed) (state : SqlState) (message : String) :
    Alive entries s' i (stage.next (.failed state message)) := by
  cases stage with
  | outside | starting | tracked | missing | finished | ending | complete => cases hstage
  | unlocking => exact halive.stays hgrows hs
  | _ => trivial

theorem serve_grows {command : MigrationCommand} {completes : Bool} {x : Result Unit × Server ι}
    (hx : s.serve completes i command = some x) : s.committed <+: x.2.committed := by
  have hwrite : ∀ w, s.committed <+: (s.write i w).committed := by
    intro w
    unfold Server.write
    split
    · exact List.prefix_rfl
    · exact List.prefix_append _ _
    · exact List.prefix_append _ _
  -- Outside of a transaction a write is committed at once; inside of one, `COMMIT` appends the block.
  cases command with
  | createTracking =>
      cases hx
      dsimp only
      split
      · exact List.prefix_rfl
      · exact hwrite _
  | selectVersion v =>
      obtain ⟨-, hx⟩ := Option.ite_none_right_eq_some.mp hx
      cases hx
      exact List.prefix_rfl
  | run sql =>
      cases hx
      exact hwrite _
  | record v =>
      obtain ⟨-, hx⟩ := Option.ite_none_right_eq_some.mp hx
      cases hx
      exact hwrite _
  | begin =>
      cases hx
      dsimp only
      split <;> exact List.prefix_rfl
  | commit =>
      cases hx
      dsimp only
      split
      · exact List.prefix_append _ _
      · exact List.prefix_rfl
      · exact List.prefix_rfl
      · exact List.prefix_rfl
  | lock | rollback | unlock =>
      cases hx
      exact List.prefix_rfl

/-- Outside of a transaction the tracking table is created where it is missing. -/
theorem serve_createTracking (hidle : s.session i = .idle) (completes : Bool) :
    ∃ s', s.serve completes i .createTracking = some (.command, s') ∧ s'.session = s.session ∧
      s'.holder = s.holder ∧ s'.committed = tracked s.committed := by
  have hvisible : s.visible i = s.committed := by simp [Server.visible, hidle]
  have hwrite : s.write i .track = { s with committed := s.committed ++ [.track] } := by
    simp [Server.write, hidle]
  refine ⟨_, rfl, ?_⟩
  rw [hvisible, hwrite]
  unfold tracked
  by_cases htrack : Write.track ∈ s.committed
  · simp only [if_pos htrack, and_self]
  · simp only [if_neg htrack, and_self]

/-- **A command that the server executes**, at the stage of the instance. -/
theorem serve_alive (hdir : Directory entries) (hs : Consistent entries s.committed)
    (halive : Alive entries s i stage) {command : MigrationCommand}
    (hstage : stage.command = some command) {completes : Bool} {x : Result Unit × Server ι}
    (hx : s.serve completes i command = some x) :
    Alive entries x.2 i (stage.next x.1) ∧ Consistent entries x.2.committed ∧
      (x.2.committed = s.committed ∨ s.holder = some i) := by
  -- By the stage, which says what the command is and in which state the session must be.
  cases stage with
  | outside | starting | tracked | missing | finished | ending | complete => cases hstage
  | connected =>
      cases hstage
      cases hx
      exact ⟨⟨halive, rfl⟩, hs, Or.inl rfl⟩
  | locked =>
      cases hstage
      obtain ⟨hsession, hholder⟩ := halive
      obtain ⟨s', hserve, hsession', hholder', hcommitted'⟩ := serve_createTracking hsession completes
      obtain ⟨applied, happlied⟩ := hs.tracked
      rw [← hcommitted'] at happlied
      obtain rfl : x = (.command, s') := Option.some.inj (hx.symm.trans hserve)
      exact ⟨⟨(congrFun hsession' i).trans hsession, hholder'.trans hholder, applied, happlied⟩,
        Or.inr ⟨applied, happlied⟩, Or.inr hholder⟩
  | inspecting file v rest =>
      cases hstage
      obtain ⟨hsession, hholder, hv, done, applied, hsplit, hdone, happlied⟩ := halive
      have hvisible : s.visible i = s.committed := by simp [Server.visible, hsession]
      simp only [Server.serve, hvisible, if_pos happlied.tracked, Option.some.injEq] at hx
      subst hx
      refine ⟨?_, hs, Or.inl rfl⟩
      obtain ⟨hrecorded, hnew⟩ := happlied.inspect hdir hsplit hdone hv
      -- a recorded version is skipped, and one that is not is the next to apply
      by_cases hmem : Write.record v ∈ s.committed
      · rw [if_pos hmem]
        exact alive_loop hsession hholder (by simpa using hsplit) (hrecorded hmem) happlied
      · rw [if_neg hmem]
        have heq := hnew hmem
        exact ⟨hsession, hholder, hv, done, hsplit, heq ▸ happlied⟩
  | read file v rest =>
      cases hstage
      obtain ⟨hsession, hfile⟩ := halive
      simp only [Server.serve, hsession, Option.some.injEq] at hx
      subst hx
      exact ⟨⟨Function.update_self .., hfile⟩, hs, Or.inl rfl⟩
  | begun file v rest =>
      cases hstage
      obtain ⟨hsession, hfile⟩ := halive
      simp only [Server.serve, Server.write, hsession, List.nil_append, Option.some.injEq] at hx
      subst hx
      cases completes with
      | true => exact ⟨⟨Function.update_self .., hfile⟩, hs, Or.inl rfl⟩
      | false => exact ⟨trivial, hs, Or.inl rfl⟩
  | ran file v rest =>
      cases hstage
      obtain ⟨hsession, hfile⟩ := halive
      simp only [Server.serve, Server.write, hsession, List.cons_append, List.nil_append,
        Option.ite_none_right_eq_some, Option.some.injEq] at hx
      obtain ⟨-, rfl⟩ := hx
      exact ⟨⟨Function.update_self .., hfile⟩, hs, Or.inl rfl⟩
  | recorded file v rest =>
      cases hstage
      obtain ⟨hsession, hholder, hv, done, hsplit, happlied⟩ := halive
      simp only [Server.serve, hsession, Option.some.injEq] at hx
      subst hx
      -- the commit makes the migration the last of those that are applied
      have hnext := happlied.snoc hsplit hv
      exact ⟨alive_loop (Function.update_self ..) hholder (by simpa using hsplit) List.prefix_rfl
        hnext, Or.inr ⟨_, hnext⟩, Or.inr hholder⟩
  | failing =>
      cases hstage
      cases hx
      exact ⟨trivial, hs, Or.inl rfl⟩
  | unlocking =>
      cases hstage
      cases hx
      exact ⟨halive, hs, Or.inl rfl⟩

/-! ### The other instances -/

/-- What a step of instance `i` leaves to the others: their sessions and the lock, if one of them holds it;
    and what is committed, unless `i` holds the lock. -/
structure Leaves (i : ι) (s s' : Server ι) : Prop where
  session : ∀ j, j ≠ i → s'.session j = s.session j
  holder : ∀ j, j ≠ i → s.holder = some j → s'.holder = some j
  released : ∀ j, j ≠ i → s'.holder = some j → s.holder = some j

omit [DecidableEq ι] in
theorem Leaves.refl (i : ι) (s : Server ι) : Leaves i s s :=
  ⟨fun _ _ => rfl, fun _ _ h => h, fun _ _ h => h⟩

theorem leaves_setSession (i : ι) (s : Server ι) (σ : Session) : Leaves i s (s.setSession i σ) :=
  ⟨fun _ hj => Function.update_of_ne hj .., fun _ _ h => h, fun _ _ h => h⟩

omit [DecidableEq ι] in
theorem Leaves.commit {ws : List Write} (h : Leaves i s s') :
    Leaves i s { s' with committed := ws } := ⟨h.session, h.holder, h.released⟩

theorem leaves_unlock (i : ι) (s : Server ι) :
    Leaves i s { s with holder := if s.holder = some i then none else s.holder } := by
  refine ⟨fun _ _ => rfl, fun j hj h => ?_, fun j hj h => ?_⟩
  · show (if s.holder = some i then none else s.holder) = some j
    rw [if_neg, h]
    rw [h]
    exact fun hji => hj (Option.some.inj hji)
  · have h' : (if s.holder = some i then none else s.holder) = some j := h
    split at h'
    · cases h'
    · exact h'

theorem leaves_close (i : ι) (s : Server ι) : Leaves i s (s.close i) := by
  obtain ⟨-, hholder, hreleased⟩ := leaves_unlock i s
  exact ⟨fun _ hj => Function.update_of_ne hj .., hholder, hreleased⟩

theorem leaves_write (i : ι) (s : Server ι) (w : Write) : Leaves i s (s.write i w) := by
  unfold Server.write
  split
  · exact leaves_setSession i s _
  · exact (Leaves.refl i s).commit
  · exact (Leaves.refl i s).commit

theorem leaves_reject (c : Answer entries) (i : ι) (s : Server ι) (command : MigrationCommand) :
    Leaves i s (s.reject c i command) := by
  unfold Server.reject
  split
  · exact leaves_setSession i s _
  · exact leaves_setSession i s _
  · exact leaves_setSession i s _
  · exact .refl i s
  · exact .refl i s

/-- Only the command that takes the lock can take it from another. -/
theorem leaves_serve {command : MigrationCommand} {completes : Bool} {x : Result Unit × Server ι}
    (hlock : command = .lock → s.holder = none) (hx : s.serve completes i command = some x) :
    Leaves i s x.2 := by
  -- Each command writes into the session of its own instance, except for the lock.
  cases command with
  | lock =>
      cases hx
      have hnone := hlock rfl
      refine ⟨fun _ _ => rfl, fun j _ h => ?_, fun j hj h => ?_⟩
      · rw [hnone] at h
        cases h
      · exact absurd (Option.some.inj h).symm hj
  | createTracking =>
      cases hx
      dsimp only
      split
      · exact .refl i s
      · exact leaves_write i s _
  | selectVersion v =>
      obtain ⟨-, hx⟩ := Option.ite_none_right_eq_some.mp hx
      cases hx
      exact .refl i s
  | begin =>
      cases hx
      dsimp only
      split
      · exact leaves_setSession i s _
      · exact .refl i s
      · exact .refl i s
  | run sql =>
      cases hx
      exact leaves_write i s _
  | record v =>
      obtain ⟨-, hx⟩ := Option.ite_none_right_eq_some.mp hx
      cases hx
      exact leaves_write i s _
  | commit =>
      cases hx
      dsimp only
      split
      · exact (leaves_setSession i s _).commit
      · exact leaves_setSession i s _
      · exact leaves_setSession i s _
      · exact leaves_setSession i s _
  | rollback =>
      cases hx
      exact leaves_setSession i s _
  | unlock =>
      cases hx
      exact leaves_unlock i s

omit [DecidableEq ι] in
/-- An instance that lives on what is committed holds the lock, or has seen the end of it. -/
theorem Alive.frame {j : ι} (halive : Alive entries s j stage) (hj : j ≠ i)
    (hleaves : Leaves i s s') (hcommitted : s'.committed = s.committed ∨ s.holder = some i)
    (hs : Consistent entries s'.committed) (hgrows : s.committed <+: s'.committed) :
    Alive entries s' j stage := by
  have hsame : s.holder = some j → s'.committed = s.committed := fun hholder =>
    hcommitted.resolve_right fun hi => hj (Option.some.inj (hholder.symm.trans hi))
  have hfile : ∀ {file v rest}, AtFile entries s j file v rest → AtFile entries s' j file v rest := by
    rintro file v rest ⟨hholder, hv, done, hsplit, happlied⟩
    exact ⟨hleaves.holder j hj hholder, hv, done, hsplit, hsame hholder ▸ happlied⟩
  have hsession := hleaves.session j hj
  cases stage with
  | outside | starting | failing | ending => trivial
  | unlocking | finished | complete => exact Applied.stays halive hgrows hs
  | connected => exact hsession.trans halive
  | locked => exact ⟨hsession.trans halive.1, hleaves.holder j hj halive.2⟩
  | tracked =>
      obtain ⟨hidle, hholder, applied, happlied⟩ := halive
      exact ⟨hsession.trans hidle, hleaves.holder j hj hholder, applied, hsame hholder ▸ happlied⟩
  | inspecting file v rest =>
      obtain ⟨hidle, hholder, hv, done, applied, hsplit, hdone, happlied⟩ := halive
      exact ⟨hsession.trans hidle, hleaves.holder j hj hholder, hv, done, applied, hsplit, hdone,
        hsame hholder ▸ happlied⟩
  | missing | read | begun | ran | recorded =>
      exact ⟨hsession.trans halive.1, hfile halive.2⟩

theorem reject_committed (c : Answer entries) (i : ι) (s : Server ι) (command : MigrationCommand) :
    (s.reject c i command).committed = s.committed := by
  unfold Server.reject
  split <;> rfl

/-- **One command**, whatever its fate. -/
theorem answer_alive (hdir : Directory entries) (hs : Consistent entries s.committed)
    (halive : Alive entries s i stage) {command : MigrationCommand}
    (hstage : stage.command = some command) (c : Answer entries)
    (hlock : command = .lock → (s.answer c i command).1.tuplesOk = true → s.holder = none) :
    Alive entries (s.answer c i command).2 i (stage.next (s.answer c i command).1) ∧
      Consistent entries (s.answer c i command).2.committed ∧
      Leaves i s (s.answer c i command).2 ∧
      s.committed <+: (s.answer c i command).2.committed ∧
      ((s.answer c i command).2.committed = s.committed ∨ s.holder = some i) := by
  have hfailed : ∀ s', s.answer c i command = (.failed .fault c.message, s') →
      Consistent entries s'.committed → Leaves i s s' → s.committed <+: s'.committed →
      (s'.committed = s.committed ∨ s.holder = some i) →
      Alive entries (s.answer c i command).2 i (stage.next (s.answer c i command).1) ∧
      Consistent entries (s.answer c i command).2.committed ∧
      Leaves i s (s.answer c i command).2 ∧
      s.committed <+: (s.answer c i command).2.committed ∧
      ((s.answer c i command).2.committed = s.committed ∨ s.holder = some i) := by
    intro s' hanswer hs' hleaves hgrows hcommitted
    rw [hanswer]
    exact ⟨alive_failed halive hstage hs' hgrows _ _, hs', hleaves, hgrows, hcommitted⟩
  have hrejected : s.answer c i command = (.failed .fault c.message, s.reject c i command) →
      Alive entries (s.answer c i command).2 i (stage.next (s.answer c i command).1) ∧
      Consistent entries (s.answer c i command).2.committed ∧
      Leaves i s (s.answer c i command).2 ∧
      s.committed <+: (s.answer c i command).2.committed ∧
      ((s.answer c i command).2.committed = s.committed ∨ s.holder = some i) := by
    intro hanswer
    have hcommitted := reject_committed c i s command
    exact hfailed _ hanswer (hcommitted.symm ▸ hs) (leaves_reject c i s command)
      (hcommitted.symm ▸ List.prefix_rfl) (Or.inl hcommitted)
  by_cases hclosed : s.session i = .closed
  · exact hfailed s (by simp [Server.answer, hclosed]) hs (.refl i s) List.prefix_rfl (Or.inl rfl)
  cases hfate : c.fate with
  | rejected => exact hrejected (by simp [Server.answer, hclosed, hfate])
  | served =>
      by_cases hrefuses : s.refuses i command = true
      · exact hrejected (by simp [Server.answer, hclosed, hfate, hrefuses])
      · cases hx : s.serve c.completes i command with
        | none => exact hrejected (by simp [Server.answer, hclosed, hfate, hrefuses, hx])
        | some x =>
            have hanswer : s.answer c i command = x := by
              simp [Server.answer, hclosed, hfate, hrefuses, hx]
            rw [hanswer] at hlock ⊢
            obtain ⟨halive', hconsistent, hcommitted⟩ := serve_alive hdir hs halive hstage hx
            refine ⟨halive', hconsistent, leaves_serve (fun hcommand => ?_) hx, serve_grows hx,
              hcommitted⟩
            subst hcommand
            cases hx
            exact hlock rfl rfl
  | lost processed =>
      -- the session is over, but what was sent may still have been executed
      have hlost : Consistent entries (s.afterLoss i command processed) ∧
          s.committed <+: s.afterLoss i command processed ∧
          (s.afterLoss i command processed = s.committed ∨ s.holder = some i) := by
        unfold Server.afterLoss
        split
        · cases hx : s.serve true i command with
          | none => exact ⟨hs, List.prefix_rfl, Or.inl rfl⟩
          | some x =>
              obtain ⟨-, hconsistent, hcommitted⟩ := serve_alive hdir hs halive hstage hx
              exact ⟨hconsistent, serve_grows hx, hcommitted⟩
        · exact ⟨hs, List.prefix_rfl, Or.inl rfl⟩
      obtain ⟨hconsistent, hgrows, hcommitted⟩ := hlost
      exact hfailed { s.close i with committed := s.afterLoss i command processed }
        (by simp [Server.answer, hclosed, hfate]) hconsistent (leaves_close i s).commit hgrows
        hcommitted

/-- A step of one instance keeps the invariant. -/
theorem Sound.step {φ : ι → ι × Stage} (hs : Sound entries φ s) (halive : Alive entries s' i stage)
    (hconsistent : Consistent entries s'.committed) (hleaves : Leaves i s s')
    (hgrows : s.committed <+: s'.committed)
    (hcommitted : s'.committed = s.committed ∨ s.holder = some i) :
    Sound entries (Function.update φ i (i, stage)) s' := by
  refine ⟨fun j => ?_, fun j => ?_, hconsistent⟩
  · by_cases hj : j = i
    · subst hj
      rw [Function.update_self]
    · rw [Function.update_of_ne hj]
      exact hs.ids j
  · by_cases hj : j = i
    · subst hj
      rw [Function.update_self]
      exact halive
    · rw [Function.update_of_ne hj]
      exact (hs.alive j).frame hj hleaves hcommitted hconsistent hgrows

/-- The same where nothing is committed. -/
theorem Sound.still {φ : ι → ι × Stage} (hs : Sound entries φ s) (halive : Alive entries s' i stage)
    (hcommitted : s'.committed = s.committed) (hleaves : Leaves i s s') :
    Sound entries (Function.update φ i (i, stage)) s' :=
  hs.step halive (hcommitted.symm ▸ hs.consistent) hleaves (hcommitted.symm ▸ List.prefix_rfl)
    (Or.inl hcommitted)

/-- Closing the connection loses nothing that the instance knows at the end. -/
theorem Alive.left (halive : Alive entries s i stage) : Alive entries (s.close i) i stage.left := by
  cases stage with
  | finished => exact halive
  | _ => trivial

/-- The answer is one that the protocol knows, and the invariant holds at the stage that it leads to. -/
def KeepsSound (entries : List DirectoryEntry) (φ : ι → ι × Stage) (s : Server ι) (c : Answer entries) (i : ι)
    (q : MigrationRequest ι) : Prop :=
  migrating.admits (φ i) q (migrationService entries q c s).1 ∧
    Sound entries (Function.update φ i (migrating.next (φ i) q (migrationService entries q c s).1))
      (migrationService entries q c s).2

section requests
variable {φ : ι → ι × Stage} {c : Answer entries}

theorem Sound.connect (hs : Sound entries φ s) (hφ : φ i = (i, .starting)) :
    KeepsSound entries φ s c i (.connect i) := by
  unfold KeepsSound
  rw [hφ]
  refine ⟨trivial, ?_⟩
  by_cases hserved : c.fate = .served
  · have hanswer : migrationService entries (.connect i) c s = (none, s.setSession i .idle) := by
      simp [migrationService, hserved]
    rw [hanswer]
    exact hs.still (Function.update_self ..) rfl (leaves_setSession i _ _)
  · have hanswer : migrationService entries (.connect i) c s = (some c.message, s) := by
      simp [migrationService, hserved]
    rw [hanswer]
    exact hs.still trivial rfl (.refl i _)

/-- The lock is granted while nobody holds it. -/
theorem Sound.exec (hdir : Directory entries) (hs : Sound entries φ s) (hφ : φ i = (i, stage))
    {command : MigrationCommand} (hcommand : stage.command = some command)
    (hlock : command = .lock → (s.answer c i command).1.tuplesOk = true → s.holder = none) :
    KeepsSound entries φ s c i (.exec i command) := by
  have halive : Alive entries s i stage := by
    have halive := hs.alive i
    rw [hφ] at halive
    exact halive
  unfold KeepsSound
  rw [hφ]
  obtain ⟨halive', hconsistent, hleaves, hgrows, hcommitted⟩ :=
    answer_alive hdir hs.consistent halive hcommand c hlock
  exact ⟨trivial, hs.step halive' hconsistent hleaves hgrows hcommitted⟩

/-- The files come in any order, and are sorted. -/
theorem Sound.enumerate (hdir : Directory entries) (hs : Sound entries φ s) (hφ : φ i = (i, .tracked)) :
    KeepsSound entries φ s c i .enumerate := by
  have halive := hs.alive i
  rw [hφ] at halive
  unfold KeepsSound
  rw [hφ]
  refine ⟨trivial, ?_⟩
  cases hlisting : c.listing with
  | error message =>
      have hanswer : migrationService entries .enumerate c s = (.error message, s) := by
        simp [migrationService, hlisting, Except.map]
      rw [hanswer]
      exact hs.still trivial rfl (.refl _ _)
  | ok l =>
      have hanswer : migrationService entries .enumerate c s = (.ok l.val, s) := by
        simp [migrationService, hlisting, Except.map]
      rw [hanswer]
      refine hs.still ?_ rfl (.refl _ _)
      rw [migrations_perm hdir.names l.property]
      obtain ⟨hidle, hholder, applied, happlied⟩ := halive
      exact alive_loop hidle hholder (List.nil_append _) List.nil_prefix happlied

theorem Sound.readFile (hs : Sound entries φ s) {file : DirectoryEntry} {v : Int} {rest : List DirectoryEntry}
    (hφ : φ i = (i, .missing file v rest)) : KeepsSound entries φ s c i (.readFile file) := by
  have halive := hs.alive i
  rw [hφ] at halive
  unfold KeepsSound
  rw [hφ]
  by_cases hread : c.readable = true
  · have hanswer : migrationService entries (.readFile file) c s = (some file.content, s) := by
      simp [migrationService, hread]
    rw [hanswer]
    exact ⟨fun sql hsql => (Option.some.inj hsql).symm, hs.still halive rfl (.refl _ _)⟩
  · have hanswer : migrationService entries (.readFile file) c s = (none, s) := by
      simp [migrationService, hread]
    rw [hanswer]
    refine ⟨fun sql hsql => ?_, hs.still trivial rfl (.refl _ _)⟩
    cases hsql

theorem Sound.disconnect (hs : Sound entries φ s) (hφ : φ i = (i, stage)) :
    KeepsSound entries φ s c i (.disconnect i) := by
  have halive := hs.alive i
  rw [hφ] at halive
  unfold KeepsSound
  rw [hφ]
  exact ⟨trivial, hs.still halive.left rfl (leaves_close i _)⟩

/-- A control step puts one instance at the beginning, or outside of its program. -/
theorem Sound.control {p p' : Instances ι} (hs : Sound entries φ p.shared)
    (hF : ∀ i, migrating.Follows Stopped (φ i) (p.thread i)) {b : InstanceControl ι}
    (hb : instanceControl b p = some p') :
    ∃ φ', Sound entries φ' p'.shared ∧ ∀ i, migrating.Follows Stopped (φ' i) (p'.thread i) := by
  have hothers : ∀ i stage (program : Program (Surroundings ι) Unit (Option String)),
      migrating.Follows Stopped (i, stage) program → ∀ j, migrating.Follows Stopped
        (Function.update φ i (i, stage) j) (Function.update p.thread i program j) := by
    intro i stage program hprogram j
    by_cases hj : j = i
    · subst hj
      simp only [Function.update_self]
      exact hprogram
    · simp only [Function.update_of_ne hj]
      exact hF j
  cases b with
  | begin i =>
      have hbegun : p' = ⟨p.shared, Function.update p.thread i (applyMigrations i)⟩ := by
        unfold instanceControl at hb
        dsimp only at hb
        split at hb
        · cases hb
        · cases hb
          rfl
        · cases hb
          rfl
      subst hbegun
      exact ⟨Function.update φ i (i, .starting), hs.still trivial rfl (.refl i _),
        hothers i .starting _ (applyMigrations_follows i)⟩
  | crash i =>
      cases hb
      exact ⟨Function.update φ i (i, .outside), hs.still trivial rfl (leaves_close i _),
        hothers i .outside _ fun hnone => by cases hnone⟩

end requests

/-- In every run each instance is at a stage, and the invariant holds. -/
theorem sound_of_run (hdir : Directory entries)
    {h : List (Event ι (Surroundings ι) (Answer entries) (InstanceControl ι))} {p : Instances ι}
    (hrun : Guarded LockFree (Pool.Step (migrationService entries) instanceControl) (notBegun ι) h p) :
    ∃ φ, Sound entries φ p.shared ∧ ∀ i, migrating.Follows Stopped (φ i) (p.thread i) := by
  refine phases_of_run migrating Stopped (fun _ φ s => Sound entries φ s) hrun ?_ ?_ ?_
  · exact ⟨fun i => (i, .outside), ⟨fun _ => rfl, fun _ => trivial, Or.inl rfl⟩, fun _ hnone =>
      by cases hnone⟩
  · intro h p φ i c q hfree hs hallowed
    obtain ⟨stage, hφ⟩ : ∃ stage, φ i = (i, stage) := ⟨(φ i).2, Prod.ext (hs.ids i) rfl⟩
    show KeepsSound entries φ p.shared c i q
    rw [hφ] at hallowed
    cases q with
    | connect j =>
        obtain ⟨rfl, hstage⟩ := hallowed
        subst hstage
        exact hs.connect hφ
    | exec j command =>
        obtain ⟨rfl, hcommand⟩ := hallowed
        refine hs.exec hdir hφ hcommand fun hlock => ?_
        subst hlock
        exact hfree
    | enumerate =>
        have hstage : stage = .tracked := hallowed
        subst hstage
        exact hs.enumerate hdir hφ
    | readFile file =>
        obtain ⟨v, rest, hstage⟩ := hallowed
        have hstage' : stage = .missing file v rest := hstage
        subst hstage'
        exact hs.readFile hφ
    | disconnect j =>
        have hj : j = i := hallowed
        subst hj
        exact hs.disconnect hφ
  · intro h p φ b p' _ hs hF hb
    exact hs.control hF hb

end invariant

/-! ## An uninterrupted run -/

/-- The error for the first name that is not valid. -/
def firstInvalid (files : List DirectoryEntry) : Option String :=
  (files.find? fun file => (version file.name).isNone).map fun file =>
    "PostgreSQL migration has an invalid numbered filename: " ++ file.name

/-- The migrations before the first name that is not valid. -/
def validFirst (files : List DirectoryEntry) : List DirectoryEntry :=
  files.takeWhile fun file => (version file.name).isSome

/-- What is committed after the loop over these migrations, where nothing fails: each text whose version is
    not recorded by then, with its version. -/
def commits : List Write → List DirectoryEntry → List Write
  | committed, [] => committed
  | committed, file :: rest =>
      match version file.name with
      | none => committed
      | some v =>
          if .record v ∈ committed then commits committed rest
          else commits (committed ++ [.run (cStr file.content), .record v]) rest

/-- Where no version occurs twice, these are the migrations up to the first invalid name. -/
theorem Applied.commits {entries done rest applied : List DirectoryEntry} {committed : List Write}
    (hdir : Directory entries) (hsplit : done ++ rest = migrations entries) (hdone : done <+: applied)
    (happlied : Applied entries applied committed) :
    Applied entries (done ++ validFirst rest) (Migrations.commits committed rest) := by
  induction rest generalizing done applied committed with
  | nil =>
      have heq : applied = done := by
        have hlen := happlied.first.length_le
        rw [← hsplit, List.append_nil] at hlen
        exact (hdone.eq_of_length_le hlen).symm
      rw [show validFirst [] = [] from rfl, List.append_nil, ← heq]
      exact happlied
  | cons file rest ih =>
      cases hv : version file.name with
      | none =>
          have heq : applied = done := by
            obtain ⟨t, rfl⟩ := hdone
            have hfirst := happlied.first
            rw [← hsplit, List.prefix_append_right_inj] at hfirst
            cases t with
            | nil => exact List.append_nil done
            | cons f t =>
                obtain ⟨rfl, -⟩ := List.cons_prefix_cons.mp hfirst
                have hvalid := happlied.valid f (by simp)
                rw [hv] at hvalid
                cases hvalid
          simpa [validFirst, Migrations.commits, hv, ← heq] using happlied
      | some v =>
          have hvalid : done ++ validFirst (file :: rest) = done ++ [file] ++ validFirst rest := by
            simp [validFirst, hv]
          have hsplit' : done ++ [file] ++ rest = migrations entries := by simpa using hsplit
          obtain ⟨hrecorded, hnew⟩ := happlied.inspect hdir hsplit hdone hv
          rw [hvalid]
          simp only [Migrations.commits, hv]
          by_cases hmem : Write.record v ∈ committed
          · -- recorded, and so applied
            rw [if_pos hmem]
            exact ih hsplit' (hrecorded hmem) happlied
          · rw [if_neg hmem]
            have heq := hnew hmem
            subst heq
            exact ih hsplit' List.prefix_rfl (happlied.snoc hsplit hv)

section rerun
variable {ι : Type} [DecidableEq ι] {entries : List DirectoryEntry} {i : ι}
  {w : World (Answer entries) (Server ι)}

/-- Nothing fails from here on. -/
def CalmWorld (w : World (Answer entries) (Server ι)) : Prop := ∀ n, (w.choices n).Calm

omit [DecidableEq ι] in
theorem CalmWorld.advance (hcalm : CalmWorld w) (s : Server ι) : CalmWorld (w.advance s) :=
  fun n => hcalm (n + 1)

/-- A command that the server can execute, where nothing fails. -/
theorem run_exec {α : Type} (command : MigrationCommand) {r : Result Unit} {s : Server ι}
    (f : Result Unit → Program (Surroundings ι) Unit α) (hcalm : CalmWorld w)
    (hopen : w.state.session i ≠ .closed) (hrefuses : w.state.refuses i command = false)
    (hserve : w.state.serve true i command = some (r, s)) :
    (exec i command >>= f).run (migrationService entries) w
      = (f r).run (migrationService entries) (w.advance s) := by
  have hanswer : w.state.answer (w.choices 0) i command = (r, s) := by
    simp [Server.answer, hopen, (hcalm 0).served, (hcalm 0).completes, hrefuses, hserve]
  show (f (w.state.answer (w.choices 0) i command).1).run (migrationService entries)
    (w.advance (w.state.answer (w.choices 0) i command).2) = _
  rw [hanswer]

/-- The same outside of a transaction. -/
theorem run_exec_idle {α : Type} (command : MigrationCommand) {r : Result Unit} {s : Server ι}
    (f : Result Unit → Program (Surroundings ι) Unit α) (hcalm : CalmWorld w)
    (hidle : w.state.session i = .idle) (hserve : w.state.serve true i command = some (r, s)) :
    (exec i command >>= f).run (migrationService entries) w
      = (f r).run (migrationService entries) (w.advance s) := by
  refine run_exec command f hcalm (by simp [hidle]) ?_ hserve
  unfold Server.refuses
  split <;> simp [hidle]

/-- The same inside of one. -/
theorem run_exec_block {α : Type} (command : MigrationCommand) {r : Result Unit} {s : Server ι}
    {writes : List Write} (f : Result Unit → Program (Surroundings ι) Unit α) (hcalm : CalmWorld w)
    (hblock : w.state.session i = .block writes false)
    (hserve : w.state.serve true i command = some (r, s)) :
    (exec i command >>= f).run (migrationService entries) w
      = (f r).run (migrationService entries) (w.advance s) := by
  refine run_exec command f hcalm (by simp [hblock]) ?_ hserve
  unfold Server.refuses
  split <;> simp [hblock]

/-- The transaction of one migration that is not recorded. -/
theorem migrateFile_run (file : DirectoryEntry) {v : Int}
    (program : Program (Surroundings ι) Unit (Option String)) (hcalm : CalmWorld w)
    (hidle : w.state.session i = .idle) (htrack : .track ∈ w.state.committed)
    (hnew : .record v ∉ w.state.committed) :
    ∃ w', (do
      let begun ← exec i .begin
      if !begun.commandOk then
        pure (some ("Could not begin PostgreSQL migration: " ++ file.name))
      else do
        let migrated ← exec i (.run (cStr file.content))
        let recorded ← if migrated.commandOk then exec i (.record v) else pure .none
        let committed ←
          if migrated.commandOk && recorded.commandOk then exec i .commit else pure .none
        if !committed.commandOk then do
          let _ ← exec i .rollback
          pure (some ("PostgreSQL migration failed: " ++ file.name ++ ": " ++ migrated.error))
        else program).run (migrationService entries) w
        = program.run (migrationService entries) w' ∧ CalmWorld w' ∧ w'.state.session i = .idle ∧
      w'.state.committed = w.state.committed ++ [.run (cStr file.content), .record v] := by
  -- The server after `BEGIN`, the text, the record and `COMMIT`.
  let s₁ := w.state.setSession i (.block [] false)
  let s₂ := s₁.setSession i (.block [.run (cStr file.content)] false)
  let s₃ := s₂.setSession i (.block [.run (cStr file.content), .record v] false)
  let s₄ : Server ι := { s₃.setSession i .idle with
    committed := w.state.committed ++ [.run (cStr file.content), .record v] }
  have hblock : ∀ (s : Server ι) σ, (s.setSession i σ).session i = σ := fun s σ =>
    Function.update_self ..
  refine ⟨(((w.advance s₁).advance s₂).advance s₃).advance s₄, ?_,
    (((hcalm.advance _).advance _).advance _).advance _, hblock _ _, rfl⟩
  have hbegin : w.state.serve true i .begin = some (.command, s₁) := by simp [Server.serve, hidle, s₁]
  have hrun : s₁.serve true i (.run (cStr file.content)) = some (.command, s₂) := by
    simp [Server.serve, Server.write, s₂, s₁, hblock]
  have hrecord : s₂.serve true i (.record v) = some (.command, s₃) := by
    -- the record is checked against what the transaction sees, its own text included
    have hvisible : s₂.visible i = w.state.committed ++ [.run (cStr file.content)] := by
      simp [Server.visible, s₂, s₁, Server.setSession]
    simp [Server.serve, hvisible, htrack, hnew, Server.write, s₃, s₂, hblock]
  have hcommit : s₃.serve true i .commit = some (.command, s₄) := by
    simp [Server.serve, s₄, s₃, s₂, s₁, Server.setSession]
  have hok : (Result.command : Result Unit).commandOk = true := rfl
  rw [run_exec_idle .begin _ hcalm hidle hbegin]
  simp only [hok, Bool.not_true, Bool.false_eq_true, if_false]
  rw [run_exec_block (w := w.advance s₁) (.run (cStr file.content)) _ (hcalm.advance _) (hblock _ _)
    hrun]
  simp only [hok, if_true, Bool.true_and]
  rw [run_exec_block (w := (w.advance s₁).advance s₂) (.record v) _ ((hcalm.advance _).advance _)
    (hblock _ _) hrecord]
  simp only [hok, if_true]
  rw [run_exec_block (w := ((w.advance s₁).advance s₂).advance s₃) .commit _
    (((hcalm.advance _).advance _).advance _) (hblock _ _) hcommit]
  simp only [hok, Bool.not_true, Bool.false_eq_true, if_false]

/-- The migrations up to the first invalid name, one after the other. -/
theorem migrateAll_run {rest : List DirectoryEntry} (hcalm : CalmWorld w)
    (hidle : w.state.session i = .idle) (htrack : .track ∈ w.state.committed) :
    ∃ w', (migrateAll i rest).run (migrationService entries) w = (.ok (firstInvalid rest), w') ∧
      w'.state.committed = commits w.state.committed rest := by
  induction rest generalizing w with
  | nil => exact ⟨_, run_exec_idle .unlock _ hcalm hidle rfl, rfl⟩
  | cons file rest ih =>
      cases hv : version file.name with
      | none =>
          refine ⟨w, ?_, ?_⟩
          · simp [migrateAll, hv, firstInvalid]
          · simp [commits, hv]
      | some v =>
          have hinvalid : firstInvalid (file :: rest) = firstInvalid rest := by
            simp [firstInvalid, hv]
          have hvisible : w.state.visible i = w.state.committed := by simp [Server.visible, hidle]
          have hselect : w.state.serve true i (.selectVersion v)
              = some (.tuples (if .record v ∈ w.state.committed then [()] else []), w.state) := by
            simp only [Server.serve, hvisible, if_pos htrack]
          rw [hinvalid]
          simp only [migrateAll, commits, hv]
          rw [run_exec_idle _ _ hcalm hidle hselect]
          simp only [Result.tuplesOk, Result.rows, Bool.not_true, Bool.false_eq_true, if_false]
          by_cases hmem : Write.record v ∈ w.state.committed
          · -- recorded: the loop goes on
            rw [if_pos hmem, if_pos hmem]
            exact ih (hcalm.advance _) hidle htrack
          · rw [if_neg hmem, if_neg hmem]
            have hread : migrationService entries (.readFile file)
                ((w.advance w.state).choices 0) (w.advance w.state).state
                = (some file.content, w.state) := by
              simp [migrationService, (hcalm.advance w.state 0).readable]
            obtain ⟨w', hrun, hcalm', hidle', hcommitted⟩ := migrateFile_run file
              (migrateAll i rest) ((hcalm.advance w.state).advance w.state) hidle htrack hmem
            obtain ⟨w'', hrest, hcommitted'⟩ := ih hcalm' hidle' (by
              rw [hcommitted]
              exact List.mem_append_left _ htrack)
            refine ⟨w'', ?_, ?_⟩
            · rw [← hrest, ← hrun]
              simp only [List.length_nil, ne_eq, not_true, if_false, Program.ask_bind,
                Program.run_call, hread]
            · rw [hcommitted', hcommitted]
              rfl

theorem migrateConnected_run (hnames : (entries.map (·.name)).Nodup) (hcalm : CalmWorld w)
    (hidle : w.state.session i = .idle) :
    ∃ w', (migrateConnected i).run (migrationService entries) w
        = (.ok (firstInvalid (migrations entries)), w') ∧
      w'.state.committed = commits (tracked w.state.committed) (migrations entries) := by
  let s₁ : Server ι := { w.state with holder := some i }
  have hidle₁ : s₁.session i = .idle := hidle
  obtain ⟨s₂, hserve, hsession, -, hcommitted⟩ := serve_createTracking hidle₁ true
  have hidle₂ : s₂.session i = .idle := (congrFun hsession i).trans hidle
  have htrack : .track ∈ s₂.committed := by
    rw [hcommitted]
    exact track_mem_tracked s₁.committed
  have hcalm₂ : CalmWorld ((w.advance s₁).advance s₂) := (hcalm.advance _).advance _
  obtain ⟨l, hl⟩ := (hcalm₂ 0).listed
  have henumerate : migrationService entries .enumerate (((w.advance s₁).advance s₂).choices 0) s₂
      = (.ok l.val, s₂) := by
    simp [migrationService, hl, Except.map]
  obtain ⟨w', hrun, hcommitted'⟩ := @migrateAll_run ι _ entries i _ (migrations entries)
    (hcalm₂.advance s₂) hidle₂ htrack
  refine ⟨w', ?_, ?_⟩
  · unfold migrateConnected
    rw [run_exec_idle (s := s₁) .lock _ hcalm hidle rfl]
    simp only [Result.tuplesOk, Bool.not_true, Bool.false_eq_true, if_false]
    rw [run_exec_idle (w := w.advance s₁) .createTracking _ (hcalm.advance _) hidle₁ hserve]
    simp only [Result.commandOk, Bool.not_true, Bool.false_eq_true, if_false, Program.ask_bind,
      Program.run_call, World.advance_state, henumerate]
    rw [← hrun, ← migrations_perm hnames l.property]
  · rw [hcommitted']
    show commits s₂.committed _ = _
    rw [hcommitted]

/-- **A run that nothing disturbs**, whatever is committed before it. -/
theorem applyMigrations_run (hnames : (entries.map (·.name)).Nodup) (hcalm : CalmWorld w) :
    ∃ w', (applyMigrations i).run (migrationService entries) w
        = (.ok (firstInvalid (migrations entries)), w') ∧
      w'.state.committed = commits (tracked w.state.committed) (migrations entries) := by
  let s₁ := w.state.setSession i .idle
  have hconnect : migrationService entries (.connect i) (w.choices 0) w.state = (none, s₁) := by
    simp [migrationService, (hcalm 0).served, s₁]
  obtain ⟨w', hrun, hall⟩ := migrateConnected_run (w := w.advance s₁) (i := i) hnames
    (hcalm.advance s₁) (Function.update_self ..)
  refine ⟨w'.advance (w'.state.close i), ?_, hall⟩
  simp only [applyMigrations, Program.ask_bind, Program.run_call, hconnect]
  rw [Program.run_bind, hrun]
  rfl

end rerun

/-! ## Exactly the recorded migrations -/

def Write.text : Write → Option String
  | .run sql => some sql
  | .track | .record _ => none

/-- The schema that what is committed makes, where `execute` is what a text does to one. -/
def schema {δ : Type} (execute : δ → String → δ) (initial : δ) (committed : List Write) : δ :=
  (committed.filterMap Write.text).foldl execute initial

def isRecorded (committed : List Write) (file : DirectoryEntry) : Bool :=
  (version file.name).any fun v => decide (.record v ∈ committed)

section recorded
variable {entries applied : List DirectoryEntry} {committed : List Write}

theorem Applied.texts (h : Applied entries applied committed) :
    committed.filterMap Write.text = applied.map fun file => cStr file.content := by
  rw [h.writes]
  show (applied.flatMap fileWrites).filterMap Write.text = _
  clear h
  induction applied with
  | nil => rfl
  | cons file applied ih => simp [fileWrites, List.filterMap_cons, Write.text, ih]

theorem Applied.isRecorded_iff (h : Applied entries applied committed) {file : DirectoryEntry} :
    isRecorded committed file = true ↔
      ∃ g ∈ applied, ∃ v, version file.name = some v ∧ version g.name = some v := by
  simp only [isRecorded, Option.any_eq_true, decide_eq_true_eq, h.recorded_iff]
  constructor
  · rintro ⟨v, hv, g, hg, hgv⟩
    exact ⟨g, hg, v, hv, hgv⟩
  · rintro ⟨g, hg, v, hv, hgv⟩
    exact ⟨v, hv, g, hg, hgv⟩

theorem Applied.isRecorded_of_mem (h : Applied entries applied committed) {file : DirectoryEntry}
    (hfile : file ∈ applied) : isRecorded committed file = true := by
  obtain ⟨v, hv⟩ := Option.isSome_iff_exists.mp (h.valid file hfile)
  exact h.isRecorded_iff.mpr ⟨file, hfile, v, hv, hv⟩

/-- No migration after those that are applied has one of their versions. -/
theorem Applied.not_isRecorded (hdir : Directory entries) (h : Applied entries applied committed)
    {later : List DirectoryEntry} (hsplit : applied ++ later = migrations entries)
    {file : DirectoryEntry} (hfile : file ∈ later) : isRecorded committed file = false := by
  rw [Bool.eq_false_iff]
  intro hrecorded
  obtain ⟨g, hg, v, hv, hgv⟩ := h.isRecorded_iff.mp hrecorded
  have hversions := hdir.versions
  rw [← hsplit, List.filterMap_append, List.nodup_append] at hversions
  exact hversions.2.2 v (List.mem_filterMap.mpr ⟨g, hg, hgv⟩) v
    (List.mem_filterMap.mpr ⟨file, hfile, hv⟩) rfl

/-- Where migrations are applied, they are the recorded ones. -/
theorem Applied.filter_isRecorded (hdir : Directory entries) (h : Applied entries applied committed) :
    (migrations entries).filter (isRecorded committed) = applied := by
  obtain ⟨later, hsplit⟩ := h.first
  rw [← hsplit, List.filter_append, List.filter_eq_self.mpr fun _ => h.isRecorded_of_mem,
    List.filter_eq_nil_iff.mpr fun file hfile => by simp [h.not_isRecorded hdir hsplit hfile],
    List.append_nil]

/-- What is committed has the texts of the recorded migrations, in their order. -/
theorem Consistent.texts (hdir : Directory entries) (h : Consistent entries committed) :
    committed.filterMap Write.text
      = ((migrations entries).filter (isRecorded committed)).map fun file => cStr file.content := by
  rcases h with rfl | ⟨applied, happlied⟩
  · have hnone : (migrations entries).filter (isRecorded []) = [] :=
      List.filter_eq_nil_iff.mpr fun file _ => by simp [isRecorded]
    rw [hnone]
    rfl
  · rw [happlied.filter_isRecorded hdir, happlied.texts]

/-- A version is recorded only for a migration of the directory. -/
theorem Consistent.recorded {v : Int} (h : Consistent entries committed)
    (hv : .record v ∈ committed) :
    ∃ file ∈ migrations entries, version file.name = some v := by
  rcases h with rfl | ⟨applied, happlied⟩
  · cases hv
  · obtain ⟨file, hfile, hversion⟩ := happlied.recorded_iff.mp hv
    exact ⟨file, happlied.first.subset hfile, hversion⟩

/-- A run that nothing disturbs applies the valid migrations, whatever it starts after. -/
theorem Consistent.commits (hdir : Directory entries) (h : Consistent entries committed) :
    Applied entries (validFirst (migrations entries))
      (Migrations.commits (Migrations.tracked committed) (migrations entries)) := by
  obtain ⟨applied, happlied⟩ := h.tracked
  have hall := happlied.commits hdir (List.nil_append _) List.nil_prefix
  rwa [List.nil_append] at hall

/-- What a further run adds: the valid migrations that are not recorded, and, the first time, the tracking
    table. -/
theorem Consistent.missing (hdir : Directory entries) (h : Consistent entries committed)
    {committed' : List Write} (hall : Applied entries (validFirst (migrations entries)) committed') :
    ∃ missing, committed' = committed ++ missing ∧ missing.filterMap Write.text
      = ((validFirst (migrations entries)).filter fun file => !isRecorded committed file).map
          fun file => cStr file.content := by
  rcases h with rfl | ⟨applied, happlied⟩
  · have hnone : (validFirst (migrations entries)).filter (fun file => !isRecorded [] file)
        = validFirst (migrations entries) :=
      List.filter_eq_self.mpr fun file _ => by
        cases hv : version file.name <;> simp [isRecorded, hv]
    refine ⟨committed', rfl, ?_⟩
    rw [hnone, hall.texts]
  · -- the valid migrations are the applied ones and some of those after them
    obtain ⟨later, hsplit⟩ := happlied.first
    have hvalid : validFirst (migrations entries) = applied ++ validFirst later := by
      rw [← hsplit]
      exact List.takeWhile_append_of_pos happlied.valid
    have happliedNone : applied.filter (fun file => !isRecorded committed file) = [] :=
      List.filter_eq_nil_iff.mpr fun file hfile => by simp [happlied.isRecorded_of_mem hfile]
    have hlaterAll : (validFirst later).filter (fun file => !isRecorded committed file)
        = validFirst later :=
      List.filter_eq_self.mpr fun file hfile => by
        have hlater : file ∈ later := (List.takeWhile_prefix _).subset hfile
        simp [happlied.not_isRecorded hdir hsplit hlater]
    refine ⟨(validFirst later).flatMap fileWrites, ?_, ?_⟩
    · rw [hall.writes, happlied.writes, hvalid, List.flatMap_append, List.cons_append]
    · rw [hvalid, List.filter_append, happliedNone, hlaterAll, List.nil_append]
      have htexts := hall.texts
      rw [hall.writes, hvalid, List.flatMap_append, List.map_append] at htexts
      have hbefore := happlied.texts
      rw [happlied.writes] at hbefore
      rw [← List.cons_append, List.filterMap_append, hbefore] at htexts
      exact List.append_cancel_left htexts

/-- **Migrations, by any number of instances and through any crashes.** At every moment what is committed
    makes the schema that exactly the recorded migrations make; they are different ones, and each one's
    text was committed once. An instance that returns without an error leaves none out. A further run that
    nothing disturbs ends as one run on an empty database does, and commits to what is there just the texts of
    the migrations that were not recorded. -/
theorem migrations_exact {ι : Type} [DecidableEq ι] (hdir : Directory entries)
    {h : List (Event ι (Surroundings ι) (Answer entries) (InstanceControl ι))} {p : Instances ι}
    (hrun : Guarded LockFree (Pool.Step (migrationService entries) instanceControl) (notBegun ι) h p) :
    let recorded := (migrations entries).filter (isRecorded p.shared.committed)
    (∀ (δ : Type) (execute : δ → String → δ) (initial : δ),
      schema execute initial p.shared.committed
        = recorded.foldl (fun d file => execute d (cStr file.content)) initial) ∧
    (∀ v, .record v ∈ p.shared.committed → ∃ file ∈ recorded, version file.name = some v) ∧
    recorded.Nodup ∧
    p.shared.committed.filterMap Write.text = recorded.map (fun file => cStr file.content) ∧
    (∀ i, p.thread i = .ret none → recorded = migrations entries) ∧
    ∀ (i j : ι) (choices choices' : Nat → Answer entries), (∀ n, (choices n).Calm) →
      (∀ n, (choices' n).Calm) →
      let rerun := (applyMigrations i).run (migrationService entries) ⟨choices, p.shared⟩
      let uninterrupted := (applyMigrations j).run (migrationService entries)
        ⟨choices', emptyDatabase ι⟩
      rerun.1 = uninterrupted.1 ∧ rerun.2.state.committed = uninterrupted.2.state.committed ∧
      ∃ missing, rerun.2.state.committed = p.shared.committed ++ missing ∧
        missing.filterMap Write.text = ((validFirst (migrations entries)).filter fun file =>
          !isRecorded p.shared.committed file).map fun file => cStr file.content := by
  obtain ⟨φ, hs, hF⟩ := sound_of_run hdir hrun
  have htexts := hs.consistent.texts hdir
  refine ⟨?_, ?_, ?_, htexts, ?_, ?_⟩
  · intro δ execute initial
    unfold schema
    rw [htexts, List.foldl_map]
  · intro v hv
    obtain ⟨file, hfile, hversion⟩ := hs.consistent.recorded hv
    refine ⟨file, List.mem_filter.mpr ⟨hfile, ?_⟩, hversion⟩
    simp [isRecorded, hversion, hv]
  · exact (migrations_nodup hdir.names).filter _
  -- an instance that returned without an error is at the last stage, where all are applied
  · intro i hreturned
    have hend := hF i
    rw [hreturned] at hend
    have hcomplete : (φ i).2 = .complete := hend rfl
    have halive := hs.alive i
    rw [hcomplete] at halive
    have hall : Applied entries (migrations entries) p.shared.committed := halive
    exact hall.filter_isRecorded hdir
  · intro i j choices choices' hcalm hcalm'
    obtain ⟨w, hrerun, hcommits⟩ := applyMigrations_run (i := i) (w := ⟨choices, p.shared⟩) hdir.names
      hcalm
    obtain ⟨w', hwhole, hcommits'⟩ := applyMigrations_run (i := j) (w := ⟨choices', emptyDatabase ι⟩)
      hdir.names hcalm'
    -- Both the rerun and the whole run end with the migrations before the first invalid name.
    have hall := hs.consistent.commits hdir
    rw [← hcommits] at hall
    have hall' : Applied entries (validFirst (migrations entries)) w'.state.committed := by
      rw [hcommits']
      exact Consistent.commits hdir (Or.inl rfl)
    dsimp only
    rw [hrerun, hwhole]
    exact ⟨rfl, hall.writes.trans hall'.writes.symm, hs.consistent.missing hdir hall⟩

/-! ### A crash inside of the second migration -/

/-- A directory with two migrations and something else. -/
def twoMigrations : List DirectoryEntry :=
  [⟨"002-tags.sql", true, "CREATE TABLE tags"⟩, ⟨"readme.md", true, ""⟩,
    ⟨"001-initial-schema.sql", true, "CREATE TABLE problems"⟩]

/-- An answer where nothing fails. -/
def calmAnswer : Answer twoMigrations := ⟨.served, "", true, true, .ok ⟨twoMigrations, .refl _⟩, true⟩

theorem calmAnswer_calm : calmAnswer.Calm := ⟨rfl, rfl, ⟨_, rfl⟩, rfl⟩

/-- One instance migrates and crashes once the second text has been executed, but not recorded. -/
def crashing : List (Bool × Answer twoMigrations ⊕ InstanceControl Bool) :=
  .inr (.begin true) :: List.replicate 14 (.inl (true, calmAnswer)) ++ [.inr (.crash true)]

def playedMigrations : Option (List (Event Bool (Surroundings Bool) (Answer twoMigrations)
    (InstanceControl Bool)) × Instances Bool) :=
  script (migrationService twoMigrations) instanceControl crashing [] (notBegun Bool)

instance {ι : Type} [DecidableEq ι] {entries : List DirectoryEntry}
    (h : List (Event ι (Surroundings ι) (Answer entries) (InstanceControl ι))) (p : Instances ι)
    (e : Event ι (Surroundings ι) (Answer entries) (InstanceControl ι)) :
    Decidable (LockFree h p e) :=
  match e with
  | .call _ _ ⟨.exec _ .lock, _⟩ => inferInstanceAs (Decidable (_ = true → _ = none))
  | .call _ _ ⟨.exec _ .createTracking, _⟩ | .call _ _ ⟨.exec _ (.selectVersion _), _⟩
  | .call _ _ ⟨.exec _ .begin, _⟩ | .call _ _ ⟨.exec _ (.run _), _⟩
  | .call _ _ ⟨.exec _ (.record _), _⟩ | .call _ _ ⟨.exec _ .commit, _⟩
  | .call _ _ ⟨.exec _ .rollback, _⟩ | .call _ _ ⟨.exec _ .unlock, _⟩
  | .call _ _ ⟨.connect _, _⟩ | .call _ _ ⟨.enumerate, _⟩ | .call _ _ ⟨.readFile _, _⟩
  | .call _ _ ⟨.disconnect _, _⟩ | .control _ => .isTrue trivial

/-- The first migration is there, and a further run adds the second one. -/
theorem migrations_exact_crash : ∃ (h : _) (p : Instances Bool),
    Guarded LockFree (Pool.Step (migrationService twoMigrations) instanceControl) (notBegun Bool) h p ∧
      p.shared.committed.filterMap Write.text = ["CREATE TABLE problems"] ∧
      ∃ missing, ((applyMigrations false).run (migrationService twoMigrations)
          ⟨fun _ => calmAnswer, p.shared⟩).2.state.committed = p.shared.committed ++ missing ∧
        missing.filterMap Write.text = ["CREATE TABLE tags"] := by
  have hplayed : playedMigrations.isSome = true := by decide
  have hfree : scriptMeets (migrationService twoMigrations) instanceControl LockFree crashing []
      (notBegun Bool) = true := by decide
  have hdir : Directory twoMigrations := ⟨by decide, by decide⟩
  have hrun := guarded_of_script .start (Option.some_get hplayed).symm hfree
  obtain ⟨-, -, -, htexts, -, hrerun⟩ := migrations_exact hdir hrun
  obtain ⟨-, -, missing, hcommitted, hmissing⟩ := hrerun false true (fun _ => calmAnswer)
    (fun _ => calmAnswer) (fun _ => calmAnswer_calm) (fun _ => calmAnswer_calm)
  exact ⟨_, _, hrun, htexts, missing, hcommitted, hmissing⟩

end recorded

end Migrations
end AlgorithmTrainer
