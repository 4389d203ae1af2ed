import AribcapDb.Maintenance.Indexer
import AribcapDb.Search.Coverage

/-! # The maintenance loop

`run_archive_maintenance` opens the search database, scans the archive, and from then on goes
through the dirty paths, removes the rows of missing files and collects garbage. The connection
counts as initialized after the scan even when the scan has failed on a file, and a file that the
recorder never marks is then not tried again (`failed_scan_is_not_retried`). Nothing is forgotten
when the scan and the calls of the recorder fail only on files of which the index needs nothing
(`unread_files_are_pending`). -/

namespace AribcapDb

/-- Where `run_archive_maintenance` stands. -/
inductive MaintenancePhase where
  /-- Between two iterations of the loop. -/
  | sleeping
  /-- The search database is about to be opened. -/
  | opening
  /-- `ingest_once`, with the files that the walk has not come to and the one being ingested. -/
  | scanning (left : Set String) (visit : Option (String × FileVisit))
  /-- `apply_pending_archive_changes`. -/
  | applying
  /-- `apply_search_cleanup` is about to start, after a garbage collection or not. -/
  | tidying (collected : Bool)
  /-- `cleanup_index_for_deleted_files`, with the paths to check and the answers so far. -/
  | cleaning (collected : Bool) (todo : List String) (answers : String → Option Bool)
  /-- The search pass is over, and a garbage collection may be due. -/
  | searched
  | collecting

/-- The indexer in its loop. -/
structure Maintenance extends Indexer where
  phase : MaintenancePhase
  /-- Whether the connection is initialized. -/
  connected : Bool
  cleanupPending : Bool
  /-- The paths that the garbage collection has unlinked. -/
  unlinked : Set String

/-- What may go wrong in a state: the scan fails on a path or on a directory above it, the cleanup
cannot tell whether it exists, or a call fails. -/
structure Failures where
  scan : Maintenance → String → Prop
  check : Maintenance → String → Prop
  call : Maintenance → ℕ → Prop

namespace Maintenance

def withIndexer (state : Maintenance) (indexer : Indexer) : Maintenance :=
  { state with toIndexer := indexer }

def withPhase (state : Maintenance) (phase : MaintenancePhase) : Maintenance :=
  { state with phase }

def withDb (state : Maintenance) (db : SearchDb) : Maintenance :=
  state.withIndexer { state.toIndexer with db }

/-- The files that `ingest_once` is to find. -/
def archived (state : Maintenance) : Set String :=
  {path | (∃ content, state.files path = some (.file content)) ∧
    (streamMonthFilename state.root path).isSome ∧ extension path = some "jsonl"}

/-- Where the loop goes on after `apply_search_cleanup`. -/
def afterCleanup (collected : Bool) : MaintenancePhase :=
  if collected then .sleeping else .searched

/-- The steps of the recorder and of the maintenance loop. -/
inductive Step (crates : Crates) (failures : Failures) (before : Maintenance) :
    Maintenance → Prop where
  | record (recorder : ConcurrentRecorder) :
      ConcurrentRecorder.Step crates (fun _ => True) before.toConcurrentRecorder recorder →
      Step crates failures before (before.withIndexer (before.recording recorder))
  /-- A call of `handle_line` fails. -/
  | fail (id : ℕ) (recorder : ConcurrentRecorder) :
      before.toConcurrentRecorder.Fails id recorder → failures.call before id →
      Step crates failures before
        (before.withIndexer { before.toIndexer with toConcurrentRecorder := recorder })
  /-- What is written to an unlinked file is lost, also when its path has been used again. -/
  | lose (recorder : ConcurrentRecorder) (path : String) :
      ConcurrentRecorder.Step crates (fun _ => True) before.toConcurrentRecorder recorder →
      path ∈ before.unlinked → before.files path ≠ none →
      recorder.files path ≠ before.files path →
      Step crates failures before
        (before.withIndexer (before.recording (recorder.withFiles before.files)))
  /-- The interval is over, or a shutdown interrupts the garbage collection. -/
  | wake : before.phase = .sleeping ∨ before.phase = .collecting →
      Step crates failures before
        (before.withPhase (if before.connected then .applying else .opening))
  | openFails : before.phase = .opening →
      Step crates failures before (before.withPhase .searched)
  | opened : before.phase = .opening →
      Step crates failures before (before.withPhase (.scanning before.archived none))
  | visit (left : Set String) (path : String) : before.phase = .scanning left none →
      extension path = some "jsonl" →
      Step crates failures before
        (before.withPhase (.scanning (left \ {path}) (some (path, .begun))))
  | look (left : Set String) (path : String) (visit next : FileVisit) :
      before.phase = .scanning left (some (path, visit)) →
      FileVisit.Step before.files path visit next →
      Step crates failures before (before.withPhase (.scanning left (some (path, next))))
  | commit (left : Set String) (path : String) (metadata : Option ArchiveFileMetadata)
      (content : Option (List UInt8)) (db : SearchDb) :
      before.phase = .scanning left (some (path, .loaded metadata content)) →
      ingestFile crates before.root before.db path ⟨metadata, content⟩ = .ok db →
      Step crates failures before ((before.withDb db).withPhase (.scanning left none))
  | visitFails (left : Set String) (path : String) (visit : FileVisit) :
      before.phase = .scanning left (some (path, visit)) → failures.scan before path →
      Step crates failures before (before.withPhase (.scanning left none))
  /-- A directory that cannot be read hides each of its files. -/
  | walkFails (left : Set String) (path : String) : before.phase = .scanning left none →
      failures.scan before path →
      Step crates failures before (before.withPhase (.scanning (left \ {path}) none))
  | gone (left : Set String) (path : String) : before.phase = .scanning left none →
      (∀ content, before.files path ≠ some (.file content)) →
      Step crates failures before (before.withPhase (.scanning (left \ {path}) none))
  /-- Whatever `ingest_once` returns, the connection is kept. -/
  | scanned : before.phase = .scanning ∅ none →
      Step crates failures before { before with connected := true, phase := .applying }
  | apply (after : Indexer) : before.phase = .applying →
      Indexer.PassStep crates before.toIndexer after →
      Step crates failures before ((before.withIndexer after).withPhase
        (match after.pass with
          | .idle => .tidying false
          | _ => .applying))
  | tidy (collected : Bool) : before.phase = .tidying collected →
      Step crates failures before (before.withPhase
        (if before.cleanupPending then
          .cleaning collected before.db.indexedPaths fun _ => some true
        else afterCleanup collected))
  | check (collected : Bool) (path : String) (todo : List String)
      (answers : String → Option Bool) (answer : Option Bool) :
      before.phase = .cleaning collected (path :: todo) answers →
      (∀ found, answer = some found → (found = true ↔ before.files path ≠ none)) →
      (answer = none → failures.check before path) →
      Step crates failures before
        (before.withPhase (.cleaning collected todo (Function.update answers path answer)))
  | cleaned (collected : Bool) (answers : String → Option Bool) :
      before.phase = .cleaning collected [] answers →
      Step crates failures before
        { (before.withDb (before.db.cleanupIndexForDeletedFiles answers).2) with
          cleanupPending := false
          phase := afterCleanup collected }
  | cleanupFails (collected : Bool) (todo : List String) (answers : String → Option Bool) :
      before.phase = .cleaning collected todo answers →
      Step crates failures before (before.withPhase (afterCleanup collected))
  | rest : before.phase = .searched → Step crates failures before (before.withPhase .sleeping)
  | collect : before.phase = .searched →
      Step crates failures before (before.withPhase .collecting)
  | unlink (path : String) (content : List UInt8) : before.phase = .collecting →
      before.files path = some (.file content) →
      Step crates failures before
        { before with
          files := Function.update before.files path none
          unlinked := insert path before.unlinked }
  | collected : before.phase = .collecting →
      Step crates failures before
        { before with
          cleanupPending := true
          phase := if before.connected then .tidying true else .sleeping }

/-- The process starts with any files and any index, and first tries to open the database. -/
structure Start (crates : Crates) (state : Maintenance) : Prop extends
    Indexer.Start crates state.toIndexer where
  phase : state.phase = .opening
  connected : state.connected = false
  cleanupPending : state.cleanupPending = true
  unlinked : state.unlinked = ∅

/-- Reached by a run in which no path is marked `2 ^ 64` times within a pass. -/
def Run (crates : Crates) (failures : Failures) : Maintenance → Prop :=
  Transition.Reachable (Start crates)
    (Transition.Restricted (Step crates failures) fun before _ => before.FewMarks)

/-- No line of a file ends behind a position. -/
def NoLineBehind (content : List UInt8) (offset : ℕ) : Prop := newline ∉ content.drop offset

/-- An archive file has complete lines that the index has not read, or no row, and its row has no
final status. -/
def IsUnread (crates : Crates) (state : Maintenance) (path : String) : Prop :=
  extension path = some "jsonl" ∧ (identify crates state.root path).isSome ∧
    ∃ content, state.files path = some (.file content) ∧
      ∀ row, state.db.indexedFile path = some row →
        row.status = .ok ∧ newline ∈ content.drop row.indexedOffset

/-- A later pass of the process comes to a path: it is dirty, or the scan is still to come. -/
def IsPending (state : Maintenance) (path : String) : Prop :=
  (state.store.generation path).isSome ∨ state.connected = false

/-- Nothing of a file is lost when the call that writes to it fails: the path is dirty, or its row
has no complete line behind its offset; and what looks at the path just now goes on with all its
lines. -/
structure IsSettled (crates : Crates) (state : Maintenance) (path : String) : Prop where
  known : (state.store.generation path).isSome ∨
    state.db.IsCaughtUp crates state.root NoLineBehind state.files path
  /-- The pass over the dirty paths has found the file with all its lines. -/
  ingesting : ∀ generation visit todo, state.pass = .ingesting path generation visit todo →
    state.marks path = 0 → visit.SeesLines state.files path
  committed : ∀ generation todo, state.pass = .committed path generation todo →
    state.marks path = 0 → state.db.IsCaughtUp crates state.root NoLineBehind state.files path
  /-- The scan has found it with all its lines, unless it is dirty. -/
  scanning : ∀ left visit, state.phase = .scanning left (some (path, visit)) →
    (state.store.generation path).isSome ∨ visit.SeesLines state.files path
  /-- The cleanup has not missed it, unless it is dirty. -/
  cleaning : ∀ collected todo answers content, state.phase = .cleaning collected todo answers →
    (answers path).getD false = false → state.files path = some (.file content) →
      (state.store.generation path).isSome

end Maintenance

/-- The failures that lose nothing: the scan fails on a path only where the index needs nothing
of it, or where the recorder has marked it or will; the check of the cleanup fails only on paths
that are marked or will be, or that are no files; and a call that fails leaves its file settled. -/
def Failures.harmless (crates : Crates) : Failures where
  scan state path := state.IsKnown crates state.root Maintenance.NoLineBehind path
  check state path := ∀ content, state.files path = some (.file content) →
    (state.store.generation path).isSome ∨ state.BeingWritten path
  call state id := ∀ call path, state.calls id = some call → call.writes = some path →
    state.IsSettled crates path

/-- The scan may fail on any path. -/
def Failures.ofScan : Failures := ⟨fun _ _ => True, fun _ _ => False, fun _ _ => False⟩

namespace Maintenance

variable {crates : Crates} {before after state : Maintenance}

/-- What a phase of the loop relies on. -/
def PhaseHolds (crates : Crates) (state : Indexer) : MaintenancePhase → Prop
  | .applying => True
  | .scanning left none => state.pass = .idle ∧ ∀ path, extension path = some "jsonl" →
      state.IsKnown crates state.root NoLineBehind path ∨ path ∈ left
  | .scanning left (some (current, visit)) => state.pass = .idle ∧
      (∀ path, extension path = some "jsonl" →
        state.IsKnown crates state.root NoLineBehind path ∨ path ∈ left ∨ path = current) ∧
        ((state.store.generation current).isSome ∨ state.BeingWritten current ∨
          visit.SeesLines state.files current)
  | .cleaning _ _ answers => state.pass = .idle ∧ ∀ path content,
      (answers path).getD false = false → state.files path = some (.file content) →
        (state.store.generation path).isSome ∨ state.BeingWritten path
  | _ => state.pass = .idle

/-- The invariant of the loop: once the connection is initialized, nothing of a file is lost. -/
structure Covers (crates : Crates) (state : Maintenance) : Prop where
  tracks : Indexer.Tracks crates state.root NoLineBehind state.toIndexer
  known : state.connected = true → ∀ path, extension path = some "jsonl" →
    state.IsKnown crates state.root NoLineBehind path
  phase : PhaseHolds crates state.toIndexer state.phase

theorem Covers.start (started : state.Start crates) : Covers crates state where
  tracks := .of_idle rfl started.db.wellFormed started.pass
  known connected := by
    rw [started.connected] at connected
    cases connected
  phase := by
    rw [started.phase]
    exact started.pass

/-- A step of the recorder, whether its bytes reach the file or not. -/
theorem Covers.recording (covers : Covers crates state) {recorder : ConcurrentRecorder}
    (effects : ∀ path,
      ConcurrentRecorder.Effect state.toConcurrentRecorder recorder path)
    (dataDir : recorder.store.dataDir = state.store.dataDir) :
    Covers crates (state.withIndexer (state.recording recorder)) := by
  have root : (state.recording recorder).root = state.root := congrArg archiveRoot dataDir
  have known {path : String} (before : state.IsKnown crates state.root NoLineBehind path) :
      (state.recording recorder).IsKnown crates state.root NoLineBehind path :=
    Indexer.isKnown_recording (effects path) (.inl before)
  refine ⟨?_, ?_, ?_⟩
  · exact root ▸ covers.tracks.recording effects dataDir
  · intro connected path jsonl
    exact root ▸ known (covers.known connected path jsonl)
  · have held := covers.phase
    change PhaseHolds crates (state.recording recorder) state.phase
    cases phase : state.phase with
    | applying => exact trivial
    | sleeping | opening | tidying _ | searched | collecting =>
        rw [phase] at held
        exact held
    | scanning left visit =>
        rw [phase] at held
        cases visit with
        | none =>
            refine ⟨held.1, fun path jsonl => ?_⟩
            rw [root]
            exact (held.2 path jsonl).imp_left known
        | some visit =>
            obtain ⟨current, visit⟩ := visit
            refine ⟨held.1, fun path jsonl => ?_, ?_⟩
            · rw [root]
              exact (held.2.1 path jsonl).imp_left known
            · apply Indexer.kept_recording (effects current) held.2.2
              intro same found content present
              exact found content (same ▸ present)
    | cleaning collected todo answers =>
        rw [phase] at held
        refine ⟨held.1, fun path content missing present => ?_⟩
        have either : (state.store.generation path).isSome ∨ state.BeingWritten path ∨
            ∀ content, state.files path ≠ some (.file content) := by
          by_cases file : ∃ content, state.files path = some (.file content)
          · obtain ⟨old, there⟩ := file
            exact (held.2 path old missing there).imp_right .inl
          · exact .inr (.inr (not_exists.mp file))
        rcases Indexer.kept_recording (effects path) either (fun same none => same ▸ none) with
          dirty | busy | none
        · exact .inl dirty
        · exact .inr busy
        · exact absurd present (none content)

/-- A call fails, and its file is settled. -/
theorem Covers.fail (covers : Covers crates state) {id : ℕ} {recorder : ConcurrentRecorder}
    (fails : state.toConcurrentRecorder.Fails id recorder)
    (settled : ∀ call path, state.calls id = some call → call.writes = some path →
      state.IsSettled crates path) :
    Covers crates
      (state.withIndexer { state.toIndexer with toConcurrentRecorder := recorder }) := by
  obtain ⟨files, store⟩ := fails.unchanged
  -- what was said of a path that was being written is said again of a settled path
  have kept {path : String} {holds : Prop} (before : state.BeingWritten path ∨ holds)
      (still : state.IsSettled crates path → holds) : recorder.BeingWritten path ∨ holds := by
    rcases before with busy | held
    · rcases fails.beingWritten busy with busy | ⟨call, found, writes⟩
      · exact .inl busy
      · exact .inr (still (settled call path found writes))
    · exact .inr held
  have known {path : String} (before : state.IsKnown crates state.root NoLineBehind path) :
      (state.store.generation path).isSome ∨ recorder.BeingWritten path ∨
        state.db.IsCaughtUp crates state.root NoLineBehind state.files path := by
    rcases before with dirty | rest
    · exact .inl dirty
    · rcases kept (rest.imp_right Or.inr) IsSettled.known with busy | dirty | caughtUp
      · exact .inr (.inl busy)
      · exact .inl dirty
      · exact .inr (.inr caughtUp)
  obtain ⟨⟨_, formed, entries, once, visit, committed⟩, covered, phase⟩ := covers
  obtain ⟨recorderOnly, calls⟩ := recorder
  obtain ⟨store', files'⟩ := recorderOnly
  obtain rfl : files' = state.files := files
  obtain rfl : store' = state.store := store
  refine ⟨⟨rfl, formed, entries, once, ?_, ?_⟩, fun connected path jsonl =>
    known (covered connected path jsonl), ?_⟩
  · intro path generation visit' todo ingesting unmarked
    exact kept (visit path generation visit' todo ingesting unmarked) fun settled =>
      settled.ingesting generation visit' todo ingesting unmarked
  · intro path generation todo ingested unmarked
    exact kept (committed path generation todo ingested unmarked) fun settled =>
      settled.committed generation todo ingested unmarked
  · change PhaseHolds crates _ state.phase
    cases here : state.phase with
    | applying => exact trivial
    | sleeping | opening | tidying _ | searched | collecting =>
        rw [here] at phase
        exact phase
    | scanning left visit =>
        rw [here] at phase
        cases visit with
        | none => exact ⟨phase.1, fun path jsonl => (phase.2 path jsonl).imp_left known⟩
        | some visit =>
            obtain ⟨current, visit⟩ := visit
            refine ⟨phase.1, fun path jsonl => (phase.2.1 path jsonl).imp_left known, ?_⟩
            rcases phase.2.2 with dirty | rest
            · exact .inl dirty
            · rcases kept (rest.imp_right Or.inr) (fun settled =>
                settled.scanning left visit here) with busy | dirty | sees
              · exact .inr (.inl busy)
              · exact .inl dirty
              · exact .inr (.inr sees)
    | cleaning collected todo answers =>
        rw [here] at phase
        refine ⟨phase.1, fun path content missing present => ?_⟩
        rcases (phase.2 path content missing present).symm with busy | dirty
        · exact (kept (.inl busy) fun settled =>
            settled.cleaning collected todo answers content here missing present).symm
        · exact .inl dirty

/-- The loop goes on to a phase that can rely on what it needs. -/
theorem Covers.withPhase (covers : Covers crates state) {phase : MaintenancePhase}
    (holds : PhaseHolds crates state.toIndexer phase) :
    Covers crates (state.withPhase phase) := ⟨covers.tracks, covers.known, holds⟩

/-- A committed transaction leaves the other paths known. -/
theorem Covers.ingested (covers : Covers crates state) {path : String} {access : FileAccess}
    {db : SearchDb} (ran : ingestFile crates state.root state.db path access = .ok db)
    {other : String} (different : other ≠ path)
    (known : state.IsKnown crates state.root NoLineBehind other) :
    (state.withDb db).IsKnown crates state.root NoLineBehind other := by
  rcases known with dirty | busy | caughtUp
  · exact .inl dirty
  · exact .inr (.inl busy)
  · exact .inr (.inr (caughtUp.ingestFile_other covers.tracks.formed ran different))

theorem Covers.commit (covers : Covers crates state) {left : Set String} {path : String}
    {metadata : Option ArchiveFileMetadata} {content : Option (List UInt8)} {db : SearchDb}
    (scanning : state.phase = .scanning left (some (path, .loaded metadata content)))
    (ran : ingestFile crates state.root state.db path ⟨metadata, content⟩ = .ok db) :
    Covers crates ((state.withDb db).withPhase (.scanning left none)) := by
  have held := covers.phase
  rw [scanning] at held
  obtain ⟨idle, remaining, current⟩ := held
  have own : (state.withDb db).IsKnown crates state.root NoLineBehind path := by
    refine current.imp_right fun rest => rest.imp_right fun found => ?_
    exact .ingestFile (fun _ _ behind => behind.2) ran found
  refine ⟨.of_idle rfl (covers.tracks.formed.ingestFile ran) idle, ?_, idle, ?_⟩
  · intro connected other jsonl
    by_cases same : other = path
    · exact same ▸ own
    · exact covers.ingested ran same (covers.known connected other jsonl)
  · intro other jsonl
    by_cases same : other = path
    · exact .inl (same ▸ own)
    · rcases remaining other jsonl with known | ahead | same'
      · exact .inl (covers.ingested ran same known)
      · exact .inr ahead
      · exact absurd same' same

theorem Covers.cleaned (covers : Covers crates state) {collected : Bool}
    {answers : String → Option Bool} (cleaning : state.phase = .cleaning collected [] answers) :
    Covers crates
      { (state.withDb (state.db.cleanupIndexForDeletedFiles answers).2) with
        cleanupPending := false
        phase := afterCleanup collected } := by
  have held := covers.phase
  rw [cleaning] at held
  obtain ⟨idle, missing⟩ := held
  have rows := (covers.tracks.formed.cleanup_spec answers).2
  refine ⟨.of_idle rfl (covers.tracks.formed.cleanup answers) idle, ?_, ?_⟩
  · intro connected path jsonl
    rcases covers.known connected path jsonl with dirty | busy | caughtUp
    · exact .inl dirty
    · exact .inr (.inl busy)
    · cases there : (answers path).getD false with
      | true =>
          refine .inr (.inr fun content present known => ?_)
          obtain ⟨row, found, rest⟩ := caughtUp content present known
          exact ⟨row, (rows path).trans (by rw [there]; exact found), rest⟩
      | false =>
          by_cases file : ∃ content, state.files path = some (.file content)
          · obtain ⟨content, present⟩ := file
            exact (missing path content there present).imp_right .inl
          · exact .inr (.inr fun content present => absurd ⟨content, present⟩ file)
  · unfold afterCleanup
    cases collected <;> exact idle

theorem Covers.unlink (covers : Covers crates state) (path : String)
    (collecting : state.phase = .collecting) :
    Covers crates
      { state with
        files := Function.update state.files path none
        unlinked := insert path state.unlinked } := by
  have held := covers.phase
  rw [collecting] at held
  refine ⟨.of_idle rfl covers.tracks.formed held, ?_, ?_⟩
  · intro connected other jsonl
    refine (covers.known connected other jsonl).imp_right fun rest => rest.imp_right ?_
    intro caughtUp
    by_cases same : other = path
    · subst same
      intro content present
      cases (Function.update_self other none state.files).symm.trans present
    · exact caughtUp.congr (Function.update_of_ne same _ _)
  · change PhaseHolds crates _ state.phase
    rw [collecting]
    exact held

theorem Covers.step (covers : Covers crates before) (few : before.FewMarks)
    (stepped : Step crates (.harmless crates) before after) :
    Covers crates after := by
  have held := covers.phase
  cases stepped with
  | record recorder moved => exact covers.recording moved.effect moved.dataDir
  | fail id recorder fails settled => exact covers.fail fails settled
  | lose recorder _ moved _ _ _ =>
      refine covers.recording (fun path => ?_) moved.dataDir
      cases moved.effect path with
      | marked generation _ => exact .marked generation rfl
      | written generation writing => exact .written generation writing
      | untouched generation _ writing => exact .untouched generation rfl writing
  | wake waiting =>
      have idle : before.pass = .idle := by
        rcases waiting with sleeping | collecting
        · rwa [sleeping] at held
        · rwa [collecting] at held
      apply covers.withPhase
      split
      · exact trivial
      · exact idle
  | openFails opening | rest opening | collect opening =>
      rw [opening] at held
      exact covers.withPhase held
  | opened opening =>
      rw [opening] at held
      refine covers.withPhase ⟨held, fun path jsonl => ?_⟩
      by_cases listed : path ∈ before.archived
      · exact .inr listed
      · -- a path that the walk does not find has no file with a readable name
        refine .inl (.inr (.inr fun content present known => absurd ?_ listed))
        obtain ⟨file, identified⟩ := Option.isSome_iff_exists.mp known
        exact ⟨⟨content, present⟩, isSome_streamMonthFilename identified, jsonl⟩
  | visit left path scanning _ =>
      rw [scanning] at held
      refine covers.withPhase ⟨held.1, fun other jsonl => ?_, .inr (.inr fun _ _ => trivial)⟩
      by_cases same : other = path
      · exact .inr (.inr same)
      · exact (held.2 other jsonl).imp_right fun ahead => .inl ⟨ahead, same⟩
  | look left path visit next scanning looked =>
      rw [scanning] at held
      obtain ⟨idle, remaining, current⟩ := held
      exact covers.withPhase
        ⟨idle, remaining, current.imp_right fun rest => rest.imp_right looked.seesLines⟩
  | commit left path metadata content db scanning ran => exact covers.commit scanning ran
  | visitFails left path visit scanning failed =>
      rw [scanning] at held
      refine covers.withPhase ⟨held.1, fun other jsonl => ?_⟩
      rcases held.2.1 other jsonl with known | ahead | same
      · exact .inl known
      · exact .inr ahead
      · exact .inl (same ▸ failed)
  | walkFails left path scanning failed =>
      rw [scanning] at held
      refine covers.withPhase ⟨held.1, fun other jsonl => ?_⟩
      by_cases same : other = path
      · exact .inl (same ▸ failed)
      · exact (held.2 other jsonl).imp_right fun ahead => ⟨ahead, same⟩
  | gone left path scanning missing =>
      rw [scanning] at held
      refine covers.withPhase ⟨held.1, fun other jsonl => ?_⟩
      by_cases same : other = path
      · refine .inl (.inr (.inr fun content present => ?_))
        exact absurd (same ▸ present) (missing content)
      · exact (held.2 other jsonl).imp_right fun ahead => ⟨ahead, same⟩
  | scanned scanning =>
      rw [scanning] at held
      refine ⟨covers.tracks, fun _ path jsonl => ?_, trivial⟩
      exact (held.2 path jsonl).resolve_right (Set.notMem_empty path)
  | apply after applying passed =>
      have tracks := covers.tracks.pass (fun _ _ behind => behind.2) passed
      have root := tracks.rooted
      refine ⟨root ▸ tracks, fun connected path jsonl => ?_, ?_⟩
      · have known := covers.tracks.isKnown few passed (covers.known connected path jsonl)
        exact root ▸ known
      · change PhaseHolds crates after _
        cases idle : after.pass with
        | idle => exact idle
        | between _ | ingesting _ _ _ _ | committed _ _ _ => exact trivial
  | tidy collected tidying =>
      rw [tidying] at held
      apply covers.withPhase
      split
      · exact ⟨held, nofun⟩
      · unfold afterCleanup
        cases collected <;> exact held
  | check collected path todo answers answer cleaning exact' failed =>
      rw [cleaning] at held
      refine covers.withPhase ⟨held.1, fun other content missing present => ?_⟩
      by_cases same : other = path
      · subst same
        rw [Function.update_self] at missing
        cases answer with
        | none => exact failed rfl content present
        | some found =>
            have there := (exact' found rfl).mpr (by simp [present])
            rw [Option.getD_some, there] at missing
            cases missing
      · rw [Function.update_of_ne same] at missing
        exact held.2 other content missing present
  | cleaned collected answers cleaning => exact covers.cleaned cleaning
  | cleanupFails collected todo answers cleaning =>
      rw [cleaning] at held
      apply covers.withPhase
      unfold afterCleanup
      cases collected <;> exact held.1
  | unlink path content collecting _ => exact covers.unlink path collecting
  | collected collecting =>
      rw [collecting] at held
      refine ⟨covers.tracks, covers.known, ?_⟩
      change PhaseHolds crates before.toIndexer _
      split <;> exact held

theorem Covers.run (run : Run crates (.harmless crates) state) : Covers crates state := by
  refine Transition.Reachable.invariant ?_ ?_ run
  · intro state started
    exact .start started
  · intro before after _ covers ⟨stepped, few⟩
    exact covers.step few stepped

/-- While no call is in progress, a later pass comes to every unread file, as long as no failure
loses anything. -/
theorem unread_files_are_pending (run : Run crates (.harmless crates) state)
    (quiet : state.Idle) : ∀ path, state.IsUnread crates path → state.IsPending path := by
  intro path ⟨jsonl, readable, content, present, unread⟩
  have covers := Covers.run run
  cases connected : state.connected with
  | false => exact .inr connected
  | true =>
      rcases covers.known connected path jsonl with dirty | ⟨id, call, found, _⟩ | caughtUp
      · exact .inl dirty
      · rw [quiet id] at found
        cases found
      · obtain ⟨row, found, reads⟩ := caughtUp content present readable
        obtain ⟨ok, line⟩ := unread row found
        exact absurd line (reads ok)

end Maintenance

namespace Sample

/-- A file of an earlier process. -/
def earlierFile : String := archivePath crates "data" "nhk" news (clock 1) 0

/-- The process starts, and one archive file is there. -/
def oneFile : Maintenance where
  store := .new "data"
  files path := if path = earlierFile then some (.file (lineBytes newsLine)) else none
  calls _ := none
  db := .migrated
  pass := .idle
  marks _ := 0
  recorded := ∅
  phase := .opening
  connected := false
  cleanupPending := true
  unlinked := ∅

/-- The process starts with an empty archive. -/
def noFile : Maintenance := { oneFile with files := fun _ => none }

end Sample

namespace Maintenance

theorem start_oneFile : Start Sample.crates Sample.oneFile where
  idle _ := rfl
  store := rfl
  db := .initial rfl
  pass := rfl
  recorded := rfl
  phase := rfl
  connected := rfl
  cleanupPending := rfl
  unlinked := rfl

theorem isUnread_earlierFile {state : Maintenance}
    (present : state.files Sample.earlierFile = some (.file (lineBytes Sample.newsLine)))
    (db : state.db = .migrated) (root : state.root = archiveRoot "data") :
    state.IsUnread Sample.crates Sample.earlierFile := by
  refine ⟨extension_archivePath .., ?_, lineBytes Sample.newsLine, present, ?_⟩
  · rw [root]
    exact (isSome_identify_archivePath ..).mpr (by decide)
  · intro row found
    rw [db] at found
    cases found

/-- Between two passes the recorder may go on. -/
theorem Run.records {failures : Failures} {phase : MaintenancePhase} {connected pending : Bool}
    {unlinked recorded : Set String} {db : SearchDb} {marks : String → ℕ}
    {earlier recorder : ConcurrentRecorder}
    (run : Run crates failures ⟨⟨earlier, db, .idle, marks, recorded⟩, phase, connected, pending,
      unlinked⟩)
    (steps : Relation.ReflTransGen (ConcurrentRecorder.Step crates fun _ => True) earlier
      recorder) :
    ∃ marks recorded, Run crates failures
      ⟨⟨recorder, db, .idle, marks, recorded⟩, phase, connected, pending, unlinked⟩ := by
  induction steps with
  | refl => exact ⟨marks, recorded, run⟩
  | tail _ moved ih =>
      obtain ⟨marks, recorded, run⟩ := ih
      exact ⟨_, _, run.next ⟨.record _ moved, fun active => absurd rfl active⟩⟩

/-- The scan fails on a file that has been recorded meanwhile, and so does the pass over the dirty
paths. -/
theorem unread_files_are_pending_sample : ∃ state,
    Run Sample.crates (.harmless Sample.crates) state ∧ state.phase = .sleeping ∧
      state.connected = true ∧
        ∃ path, state.IsUnread Sample.crates path ∧ state.IsPending path := by
  have header : lineProgram Sample.crates Sample.newsLine = some (some Sample.news) := by
    decide +kernel
  let recorder : Recorder := .new "data" fun _ => none
  let active : ActiveArchiveFile := ⟨Sample.news.key, Sample.earlierFile⟩
  let recorded := recorder.started "nhk" active Sample.newsLine
  have handled : recorder.Handled Sample.crates "nhk" Sample.newsLine (Sample.clock 1)
      (some (.programStarted Sample.earlierFile)) recorded :=
    .start Sample.news 0 active header (by intro _ found; cases found) rfl rfl
  have present : recorded.files Sample.earlierFile = some (.file (lineBytes Sample.newsLine)) :=
    Recorder.files_started ..
  have unlocked : (ConcurrentRecorder.idle recorded).Unlocked :=
    ConcurrentRecorder.Idle.unlocked fun _ => rfl
  have dirty : (recorded.store.generation Sample.earlierFile).isSome = true := rfl
  have nothing : Sample.noFile.archived = ∅ := by
    apply Set.eq_empty_of_forall_notMem
    intro path found
    obtain ⟨⟨content, present⟩, _⟩ := found
    cases present
  have start : Run Sample.crates (.harmless Sample.crates) Sample.noFile :=
    .initial ⟨⟨fun _ => rfl, rfl, .initial rfl, rfl, rfl⟩, rfl, rfl, rfl, rfl⟩
  have opened := start.next ⟨.opened rfl, fun active => absurd rfl active⟩
  rw [nothing] at opened
  obtain ⟨marks, written, recording⟩ :=
    Run.records opened (ConcurrentRecorder.runs_handled handled trivial)
  have visited := recording.next ⟨.visit _ Sample.earlierFile rfl (extension_archivePath ..),
    fun active => absurd rfl active⟩
  have failed := visited.next ⟨.visitFails _ _ _ rfl (.inl dirty),
    fun active => absurd rfl active⟩
  have scanned := failed.next
    ⟨.scanned (congrArg (MaintenancePhase.scanning · none) (Set.empty_sdiff _)),
      fun active => absurd rfl active⟩
  have snapshot := scanned.next ⟨.apply _ rfl (.snapshot [(Sample.earlierFile, 1)] rfl unlocked
    (.refl _)), fun active => absurd rfl active⟩
  have begun := snapshot.next ⟨.apply _ rfl (.start Sample.earlierFile 1 [] rfl),
    fun _ _ => Nat.two_pow_pos 64⟩
  have rolledBack := begun.next ⟨.apply _ rfl (.fail Sample.earlierFile 1 _ [] rfl),
    fun _ _ => Nat.two_pow_pos 64⟩
  have finished := rolledBack.next ⟨.apply _ rfl (.finish rfl), fun _ _ => Nat.two_pow_pos 64⟩
  have tidied := finished.next ⟨.tidy false rfl, fun active => absurd rfl active⟩
  have cleaned := tidied.next ⟨.cleanupFails false _ _ rfl, fun active => absurd rfl active⟩
  have slept := cleaned.next ⟨.rest rfl, fun active => absurd rfl active⟩
  have pending := unread_files_are_pending slept (fun _ => rfl) Sample.earlierFile
    (isUnread_earlierFile present rfl rfl)
  exact ⟨_, slept, rfl, rfl, _, isUnread_earlierFile present rfl rfl, pending⟩

/-- A scan that fails on a file that has been there before is the last time that the process
comes to it. -/
theorem failed_scan_is_not_retried : ¬ ∀ (crates : Crates) (state : Maintenance),
    Transition.Reachable (Start crates) (Step crates .ofScan) state →
      state.phase = .sleeping → state.Idle →
        ∀ path, state.IsUnread crates path → state.IsPending path := by
  intro claim
  have start : Transition.Reachable (Start Sample.crates) (Step Sample.crates .ofScan)
      Sample.oneFile := .initial start_oneFile
  have opened := start.next (.opened rfl)
  have failed := opened.next (.walkFails _ Sample.earlierFile rfl trivial)
  have nothing : Sample.oneFile.archived \ {Sample.earlierFile} = ∅ := by
    apply Set.eq_empty_of_forall_notMem
    intro path ⟨⟨⟨content, present⟩, _⟩, other⟩
    have absent : Sample.oneFile.files path = none := if_neg other
    rw [absent] at present
    cases present
  have scanned := failed.next (.scanned (congrArg (MaintenancePhase.scanning · none) nothing))
  have snapshot := scanned.next (.apply _ rfl (.snapshot [] rfl nofun .nil))
  have finished := snapshot.next (.apply _ rfl (.finish rfl))
  have tidied := finished.next (.tidy false rfl)
  have cleaned := tidied.next (.cleaned false _ rfl)
  have slept := cleaned.next (.rest rfl)
  have present : Sample.oneFile.files Sample.earlierFile =
      some (.file (lineBytes Sample.newsLine)) := by simp only [Sample.oneFile, ↓reduceIte]
  rcases claim _ _ slept rfl (fun _ => rfl) _ (isUnread_earlierFile present rfl rfl) with
    dirty | unconnected
  · cases dirty
  · cases unconnected

end Maintenance

end AribcapDb
