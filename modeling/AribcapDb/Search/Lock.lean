import AribcapDb.Search.Invariant

/-! # The lock of the data directory

`serve` and `search-rebuild` take the same lock before they touch the search database. A rebuild
removes the database file, and a connection that is still open to it goes on with a file that no
path leads to. This happens only to readers that a service has not yet closed when it has released
the lock. Whoever holds the lock finds every one of its connections at the database file of the
path, and every file that is open has come about by transactions alone
(`lock_protects_the_database`). -/

namespace AribcapDb

/-- The files that `run_rebuild` removes, by what follows the name of the database. -/
def rebuildSuffixes : List String := ["", "-wal", "-shm"]

/-- Where a process of `serve` or `search-rebuild` stands; a database file is known by a number. -/
inductive DataDirUser where
  | idle
  /-- The lock file is open. -/
  | opened (rebuilds : Bool)
  /-- `run` of `serve`, with the connection of archive maintenance and those of the readers. -/
  | serving (writer : Option ℕ) (readers : List ℕ)
  /-- The lock is released, and the readers are still to be closed. -/
  | leaving (readers : List ℕ)
  /-- `run_rebuild`, with the files that are left to remove. -/
  | removing (left : List String)
  | rebuilding (writer : ℕ)
  /-- The process has died. -/
  | dead
  deriving DecidableEq, Repr

namespace DataDirUser

/-- The process has acquired the lock and not released it. -/
def HoldsLock : DataDirUser → Prop
  | .idle | .opened _ | .leaving _ | .dead => False
  | .serving _ _ | .removing _ | .rebuilding _ => True

/-- The database files that a process has open. -/
def connections : DataDirUser → List ℕ
  | .serving writer readers => writer.toList ++ readers
  | .leaving readers => readers
  | .rebuilding writer => [writer]
  | .idle | .opened _ | .removing _ | .dead => []

/-- Only readers are open without the lock. -/
theorem leaving_of_connection {user : DataDirUser} {file : ℕ}
    (connected : file ∈ user.connections) (outside : ¬ user.HoldsLock) :
    ∃ readers, user = .leaving readers := by
  cases user with
  | serving writer readers => exact absurd trivial outside
  | rebuilding writer => exact absurd trivial outside
  | leaving readers => exact ⟨readers, rfl⟩
  | idle | opened _ | removing _ | dead => cases connected

end DataDirUser

/-- The database path, the contents of all database files, the lock and the processes. -/
structure DataDir where
  /-- The file at the path of the search database. -/
  database : Option ℕ
  content : ℕ → SearchDb
  /-- The number of the next file. -/
  nextFile : ℕ
  lock : Option ℕ
  user : ℕ → DataDirUser

namespace DataDir

/-- A process moves on. -/
def withUser (state : DataDir) (id : ℕ) (user : DataDirUser) : DataDir :=
  { state with user := Function.update state.user id user }

def withLock (state : DataDir) (lock : Option ℕ) : DataDir := { state with lock }

def withDatabase (state : DataDir) (database : Option ℕ) : DataDir := { state with database }

/-- A transaction is committed to a file, wherever that file is. -/
def committed (state : DataDir) (file : ℕ) (db : SearchDb) : DataDir :=
  { state with content := Function.update state.content file db }

/-- `open_and_migrate`: the file at the path, or a new one. -/
def openAndMigrate (state : DataDir) : ℕ × DataDir :=
  match state.database with
  | some file => (file, state)
  | none =>
      (state.nextFile,
        { state with
          database := some state.nextFile
          content := Function.update state.content state.nextFile .migrated
          nextFile := state.nextFile + 1 })

/-- The steps of `serve` and `run_rebuild`. A process may fail or die at any step, and the system
releases the lock of a dead one. -/
inductive Step (crates : Crates) (archiveRoot : String) (before : DataDir) : DataDir → Prop where
  | openLock (id : ℕ) (rebuilds : Bool) : before.user id = .idle →
      Step crates archiveRoot before (before.withUser id (.opened rebuilds))
  | refused (id : ℕ) (rebuilds : Bool) : before.user id = .opened rebuilds →
      Step crates archiveRoot before (before.withUser id .idle)
  | serve (id : ℕ) : before.user id = .opened false → before.lock = none →
      Step crates archiveRoot before
        ((before.withLock (some id)).withUser id (.serving none []))
  /-- Archive maintenance opens its connection. -/
  | connect (id : ℕ) (readers : List ℕ) : before.user id = .serving none readers →
      Step crates archiveRoot before (before.openAndMigrate.2.withUser id
        (.serving (some before.openAndMigrate.1) readers))
  | commit (id file : ℕ) (readers : List ℕ) (db : SearchDb) :
      before.user id = .serving (some file) readers →
      IndexStep crates archiveRoot (before.content file) db →
      Step crates archiveRoot before (before.committed file db)
  /-- The connection ends with its task. -/
  | disconnect (id file : ℕ) (readers : List ℕ) :
      before.user id = .serving (some file) readers →
      Step crates archiveRoot before (before.withUser id (.serving none readers))
  /-- A connection of the reader pool is opened. -/
  | read (id file : ℕ) (writer : Option ℕ) (readers : List ℕ) :
      before.user id = .serving writer readers → before.database = some file →
      Step crates archiveRoot before (before.withUser id (.serving writer (file :: readers)))
  | leave (id : ℕ) (readers : List ℕ) : before.user id = .serving none readers →
      Step crates archiveRoot before
        ((before.withLock none).withUser id (.leaving readers))
  | exit (id : ℕ) (readers : List ℕ) : before.user id = .leaving readers →
      Step crates archiveRoot before (before.withUser id .idle)
  | rebuild (id : ℕ) : before.user id = .opened true → before.lock = none →
      Step crates archiveRoot before
        ((before.withLock (some id)).withUser id (.removing rebuildSuffixes))
  | remove (id : ℕ) (suffix : String) (left : List String) :
      before.user id = .removing (suffix :: left) →
      Step crates archiveRoot before
        ((before.withDatabase (if suffix = "" then none else before.database)).withUser id
          (.removing left))
  | rebuildConnects (id : ℕ) : before.user id = .removing [] →
      Step crates archiveRoot before
        (before.openAndMigrate.2.withUser id (.rebuilding before.openAndMigrate.1))
  | rebuildCommits (id file : ℕ) (db : SearchDb) : before.user id = .rebuilding file →
      IndexStep crates archiveRoot (before.content file) db →
      Step crates archiveRoot before (before.committed file db)
  /-- The rebuild is done, or returns an error. -/
  | rebuildEnds (id : ℕ) :
      (∃ left, before.user id = .removing left) ∨ (∃ file, before.user id = .rebuilding file) →
      Step crates archiveRoot before ((before.withLock none).withUser id .idle)
  | crash (id : ℕ) : Step crates archiveRoot before (before.withUser id .dead)
  | release (id : ℕ) : before.user id = .dead → before.lock = some id →
      Step crates archiveRoot before (before.withLock none)

/-- No process yet, and nothing at the path or a database that transactions have made. -/
structure Start (crates : Crates) (archiveRoot : String) (state : DataDir) : Prop where
  lock : state.lock = none
  user : ∀ id, state.user id = .idle
  database : ∀ file, state.database = some file → file < state.nextFile ∧
    IndexReachable crates archiveRoot (state.content file)

/-- What the lock protects. -/
structure Protected (crates : Crates) (archiveRoot : String) (state : DataDir) : Prop where
  locked : ∀ id, (state.user id).HoldsLock → state.lock = some id
  /-- With the lock, every connection leads to the file at the path. -/
  current : ∀ id, (state.user id).HoldsLock → ∀ file ∈ (state.user id).connections,
    state.database = some file
  /-- What is open or at the path has been made by transactions from an empty database. -/
  indexed : ∀ file, (state.database = some file ∨ ∃ id, file ∈ (state.user id).connections) →
    file < state.nextFile ∧ IndexReachable crates archiveRoot (state.content file)

namespace Protected

variable {crates : Crates} {archiveRoot : String} {before after state : DataDir}

theorem start (started : state.Start crates archiveRoot) :
    Protected crates archiveRoot state := by
  obtain ⟨_, idle, database⟩ := started
  refine ⟨?_, ?_, ?_⟩
  · intro id holds
    rw [idle id] at holds
    exact holds.elim
  · intro id holds
    rw [idle id] at holds
    exact holds.elim
  · rintro file (there | ⟨id, connected⟩)
    · exact database file there
    · rw [idle id] at connected
      cases connected

/-- A process moves on: it holds the lock if it has to, and it opens nothing but the file at the
path. -/
theorem withUser (protected' : Protected crates archiveRoot before) {id : ℕ}
    {user : DataDirUser} (locked : user.HoldsLock → before.lock = some id)
    (current : ∀ file ∈ user.connections, before.database = some file) :
    Protected crates archiveRoot (before.withUser id user) := by
  have users (other : ℕ) : (before.withUser id user).user other =
      if other = id then user else before.user other := Function.update_apply _ _ _ _
  refine ⟨?_, ?_, ?_⟩
  · intro other holds
    rw [users] at holds
    split at holds
    · next same => exact same ▸ locked holds
    · exact protected'.locked other holds
  · intro other holds file connected
    rw [users] at holds connected
    split at holds
    · next same =>
        rw [if_pos same] at connected
        exact current file connected
    · next different =>
        rw [if_neg different] at connected
        exact protected'.current other holds file connected
  · rintro file (there | ⟨other, connected⟩)
    · exact protected'.indexed file (.inl there)
    · rw [users] at connected
      split at connected
      · exact protected'.indexed file (.inl (current file connected))
      · exact protected'.indexed file (.inr ⟨other, connected⟩)

/-- The only process that may hold the lock takes it, releases it or changes what stands at the
path. -/
theorem exclusively (protected' : Protected crates archiveRoot before) {id : ℕ}
    (alone : ∀ other ≠ id, ¬ (before.user other).HoldsLock) (user : DataDirUser)
    (lock database : Option ℕ) (locked : user.HoldsLock → lock = some id)
    (current : user.HoldsLock → user.connections = [])
    (left : ∀ file ∈ user.connections, file ∈ (before.user id).connections)
    (kept : database = before.database ∨ database = none) :
    Protected crates archiveRoot
      (((before.withLock lock).withDatabase database).withUser id user) := by
  have users (other : ℕ) :
      (((before.withLock lock).withDatabase database).withUser id user).user other =
        if other = id then user else before.user other := Function.update_apply _ _ _ _
  refine ⟨?_, ?_, ?_⟩
  · intro other holds
    rw [users] at holds
    split at holds
    · next same => exact same ▸ locked holds
    · next different => exact absurd holds (alone other different)
  · intro other holds file connected
    rw [users] at holds connected
    split at holds
    · next same =>
        rw [if_pos same, current holds] at connected
        cases connected
    · next different => exact absurd holds (alone other different)
  · rintro file (there | ⟨other, connected⟩)
    · rcases kept with same | gone
      · exact protected'.indexed file (.inl (same ▸ there))
      · cases gone.symm.trans there
    · rw [users] at connected
      split at connected
      · exact protected'.indexed file (.inr ⟨id, left file connected⟩)
      · exact protected'.indexed file (.inr ⟨other, connected⟩)

/-- Nobody holds a free lock. -/
theorem alone_of_free (protected' : Protected crates archiveRoot before)
    (free : before.lock = none) (id : ℕ) :
    ∀ other ≠ id, ¬ (before.user other).HoldsLock := by
  intro other _ holds
  have locked := protected'.locked other holds
  rw [free] at locked
  cases locked

theorem alone_of_holder (protected' : Protected crates archiveRoot before) {id : ℕ}
    (holder : (before.user id).HoldsLock) :
    ∀ other ≠ id, ¬ (before.user other).HoldsLock := by
  intro other different holds
  have mine := protected'.locked id holder
  rw [protected'.locked other holds] at mine
  exact different (Option.some.inj mine)

theorem user_openAndMigrate (state : DataDir) : state.openAndMigrate.2.user = state.user := by
  unfold DataDir.openAndMigrate
  split <;> rfl

/-- The database is opened by the process that holds the lock. -/
theorem openAndMigrate (protected' : Protected crates archiveRoot before) :
    Protected crates archiveRoot before.openAndMigrate.2 ∧
      before.openAndMigrate.2.database = some before.openAndMigrate.1 ∧
        before.openAndMigrate.2.lock = before.lock := by
  unfold DataDir.openAndMigrate
  cases there : before.database with
  | some file => exact ⟨protected', there, rfl⟩
  | none =>
      refine ⟨⟨protected'.locked, ?_, ?_⟩, rfl, rfl⟩
      · intro other holds file connected
        have old := protected'.current other holds file connected
        rw [there] at old
        cases old
      · rintro file (new | opened)
        · cases new
          exact ⟨Nat.lt_succ_self _, .initial (Function.update_self ..)⟩
        · obtain ⟨older, indexed⟩ := protected'.indexed file (.inr opened)
          refine ⟨older.trans (Nat.lt_succ_self _), ?_⟩
          change IndexReachable crates archiveRoot
            (Function.update before.content before.nextFile .migrated file)
          rwa [Function.update_of_ne older.ne]

/-- A transaction of a connection that leads to the file at the path. -/
theorem committed (protected' : Protected crates archiveRoot before) {file : ℕ} {db : SearchDb}
    (current : before.database = some file)
    (stepped : IndexStep crates archiveRoot (before.content file) db) :
    Protected crates archiveRoot (before.committed file db) := by
  refine ⟨protected'.locked, protected'.current, fun other there => ?_⟩
  obtain ⟨known, indexed⟩ := protected'.indexed other there
  refine ⟨known, ?_⟩
  change IndexReachable crates archiveRoot (Function.update before.content file db other)
  by_cases same : other = file
  · subst same
    rw [Function.update_self]
    exact (protected'.indexed other (.inl current)).2.next stepped
  · rwa [Function.update_of_ne same]

theorem step (protected' : Protected crates archiveRoot before)
    (stepped : Step crates archiveRoot before after) : Protected crates archiveRoot after := by
  have holder {id : ℕ} {user : DataDirUser} (here : before.user id = user)
      (holds : user.HoldsLock) : before.lock = some id :=
    protected'.locked id (here ▸ holds)
  have connected {id : ℕ} {user : DataDirUser} (here : before.user id = user)
      (holds : user.HoldsLock) : ∀ file ∈ user.connections, before.database = some file :=
    fun file member => protected'.current id (here ▸ holds) file (here ▸ member)
  cases stepped with
  | openLock id _ _ | refused id _ _ | exit id _ _ | crash id =>
      exact protected'.withUser False.elim nofun
  | serve id _ free | rebuild id _ free =>
      exact protected'.exclusively (protected'.alone_of_free free id) _ (some id) before.database
        (fun _ => rfl) (fun _ => rfl) nofun (.inl rfl)
  | connect id readers serving =>
      obtain ⟨opened, database, lock⟩ := protected'.openAndMigrate
      apply opened.withUser fun _ => lock.trans (holder serving trivial)
      intro file member
      rcases List.mem_cons.mp member with rfl | reader
      · exact database
      · apply opened.current id
        · rw [user_openAndMigrate, serving]
          trivial
        · rw [user_openAndMigrate, serving]
          exact reader
  | commit id file readers db serving stepped =>
      exact protected'.committed (connected serving trivial file List.mem_cons_self) stepped
  | disconnect id file readers serving =>
      apply protected'.withUser fun _ => holder serving trivial
      exact fun other member => connected serving trivial other (List.mem_cons_of_mem _ member)
  | read id file writer readers serving there =>
      apply protected'.withUser fun _ => holder serving trivial
      intro other member
      rcases List.mem_append.mp member with writes | reads
      · exact connected serving trivial other (List.mem_append_left _ writes)
      · rcases List.mem_cons.mp reads with rfl | old
        · exact there
        · exact connected serving trivial other (List.mem_append_right _ old)
  | leave id readers serving =>
      refine protected'.exclusively (protected'.alone_of_holder (by rw [serving]; trivial)) _ none
        before.database False.elim False.elim ?_ (.inl rfl)
      intro file reader
      rw [serving]
      exact reader
  | remove id suffix left removing =>
      apply protected'.exclusively (protected'.alone_of_holder (by rw [removing]; trivial))
        (.removing left) before.lock (if suffix = "" then none else before.database)
        (fun _ => holder removing trivial) (fun _ => rfl) nofun
      split
      · exact .inr rfl
      · exact .inl rfl
  | rebuildConnects id removing =>
      obtain ⟨opened, database, lock⟩ := protected'.openAndMigrate
      apply opened.withUser fun _ => lock.trans (holder removing trivial)
      intro file member
      rcases List.mem_cons.mp member with rfl | none
      · exact database
      · cases none
  | rebuildCommits id file db rebuilding stepped =>
      exact protected'.committed (connected rebuilding trivial file List.mem_cons_self) stepped
  | rebuildEnds id inside =>
      have holds : (before.user id).HoldsLock := by
        rcases inside with ⟨left, removing⟩ | ⟨file, rebuilding⟩
        · rw [removing]
          trivial
        · rw [rebuilding]
          trivial
      exact protected'.exclusively (protected'.alone_of_holder holds) .idle none before.database
        False.elim False.elim nofun (.inl rfl)
  | release id dead locked =>
      refine ⟨fun other holds => ?_, protected'.current, protected'.indexed⟩
      have same := (protected'.locked other holds).symm.trans locked
      rw [Option.some.inj same] at holds
      change (before.user id).HoldsLock at holds
      rw [dead] at holds
      exact holds.elim

theorem run (reachable : Transition.Reachable (Start crates archiveRoot) (Step crates archiveRoot)
    state) : Protected crates archiveRoot state :=
  reachable.invariant (fun _ started => start started) fun _ _ _ protected' stepped =>
    protected'.step stepped

/-- The database is removed while nobody who holds the lock has a database open. -/
theorem removed (protected' : Protected crates archiveRoot before)
    (stepped : Step crates archiveRoot before after) {file : ℕ}
    (there : before.database = some file) (gone : after.database = none) (id : ℕ) :
    (before.user id).connections = [] ∨ ∃ readers, before.user id = .leaving readers := by
  have kept (same : after.database = before.database) : False := by
    rw [gone, there] at same
    cases same
  have opened (same : after.database = before.openAndMigrate.2.database) : False := by
    rw [gone, protected'.openAndMigrate.2.1] at same
    cases same
  cases stepped with
  | openLock _ _ _ | refused _ _ _ | serve _ _ _ | commit _ _ _ _ _ _ | disconnect _ _ _ _
  | read _ _ _ _ _ _ | leave _ _ _ | exit _ _ _ | rebuild _ _ _ | rebuildCommits _ _ _ _ _
  | rebuildEnds _ _ | crash _ | release _ _ _ => exact (kept rfl).elim
  | connect _ _ _ | rebuildConnects _ _ => exact (opened rfl).elim
  | remove remover suffix left removing =>
      by_cases same : id = remover
      · rw [same, removing]
        exact .inl rfl
      · have holds : (before.user remover).HoldsLock := by
          rw [removing]
          trivial
        have outside := protected'.alone_of_holder holds id same
        cases connected : (before.user id).connections with
        | nil => exact .inl rfl
        | cons file rest =>
            exact .inr (DataDirUser.leaving_of_connection (connected ▸ List.mem_cons_self) outside)

end Protected

/-- At most one process is past the lock. Each of its connections leads to the file at the path,
so that no transaction is lost with a file that has been removed, and every database that is open
is one that transactions have made of an empty one. When the database is removed, no connections
are open but those of readers whose process has released the lock. -/
theorem lock_protects_the_database {crates : Crates} {archiveRoot : String} {state : DataDir}
    (reachable : Transition.Reachable (Start crates archiveRoot) (Step crates archiveRoot) state) :
    (∀ first second, (state.user first).HoldsLock → (state.user second).HoldsLock →
        first = second) ∧
      (∀ id, ∀ file ∈ (state.user id).connections,
        ((state.user id).HoldsLock → state.database = some file) ∧
          IndexReachable crates archiveRoot (state.content file)) ∧
        ∀ after file, Step crates archiveRoot state after → state.database = some file →
          after.database = none → ∀ id,
            (state.user id).connections = [] ∨ ∃ readers, state.user id = .leaving readers := by
  have protected' := Protected.run reachable
  refine ⟨fun first second one two => ?_, fun id file connected => ?_, ?_⟩
  · exact Option.some.inj ((protected'.locked first one).symm.trans (protected'.locked second two))
  · exact ⟨fun holds => protected'.current id holds file connected,
      (protected'.indexed file (.inr ⟨id, connected⟩)).2⟩
  · exact fun after file stepped there gone => protected'.removed stepped there gone

/-- A service is left with a reader when it releases the lock, and a rebuild removes the
database. -/
theorem lock_protects_the_database_sample : ∃ state : DataDir,
    state.user 0 = .leaving [0] ∧ state.user 1 = .removing ["-wal", "-shm"] ∧
      state.database = none ∧ IndexReachable Sample.crates "archive" (state.content 0) := by
  have start : Transition.Reachable (Start Sample.crates "archive") (Step Sample.crates "archive")
      ⟨none, fun _ => .migrated, 0, none, fun _ => .idle⟩ :=
    .initial ⟨rfl, fun _ => rfl, nofun⟩
  have opened := start.next (.openLock 0 false rfl)
  have waiting := opened.next (.openLock 1 true rfl)
  have serving := waiting.next (.serve 0 rfl rfl)
  have connected := serving.next (.connect 0 [] rfl)
  have reading := connected.next (.read 0 0 _ [] rfl rfl)
  have closed := reading.next (.disconnect 0 0 [0] rfl)
  have leaving := closed.next (.leave 0 [0] rfl)
  have rebuilding := leaving.next (.rebuild 1 rfl rfl)
  have removed := rebuilding.next (.remove 1 "" ["-wal", "-shm"] rfl)
  have found := (lock_protects_the_database removed).2.1 0 0 List.mem_cons_self
  exact ⟨_, rfl, rfl, rfl, found.2⟩

end DataDir

end AribcapDb
