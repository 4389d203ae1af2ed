import AribcapDb.Archive.Garbage
import AribcapDb.Maintenance.Loop
import AribcapDb.Search.Pass

/-! # Draining the dirty paths

A pass of `apply_pending_archive_changes` that nothing interrupts, after a run of the recorder, the
maintenance loop and its garbage collection. The recorder marks files that it has written to, and
only the collection removes files. It spares the active ones and does not look at the marks, so
that a file can go while its path is dirty; the path then fails in every later pass
(`collected_path_stays_dirty`). The pass leaves nothing dirty when the collection unlinks no file
that is dirty, active or being written (`dirty_paths_drain`). -/

namespace AribcapDb

/-- `ingest_paths`. -/
def ingestPaths (crates : Crates) (archiveRoot : String) (db : SearchDb)
    (paths : List PathAttempt) : Except String Unit × SearchDb :=
  ingestPathStream crates archiveRoot db paths

/-- What a pass meets: what the files look like, and which transactions can be committed. -/
structure PassOutcome where
  access : String → FileAccess
  commits : String → Bool

namespace PassOutcome

def attempt (outcome : PassOutcome) (path : String) : PathAttempt :=
  ⟨path, outcome.access path, outcome.commits path⟩

/-- Every operation on the database and on an existing file succeeds; a file that does not exist
has no metadata. -/
structure Succeeds (outcome : PassOutcome) (files : FileSystem) : Prop where
  commits : ∀ path, outcome.commits path = true
  reads : ∀ path content, files path = some (.file content) →
    (outcome.attempt path).Reads content
  missing : ∀ path, files path = none → (outcome.access path).metadata = none

/-- The outcome where everything succeeds. -/
def ofFiles (files : FileSystem) : PassOutcome where
  access path :=
    match files path with
    | some (.file content) => prefixAccess content 0
    | _ => ⟨none, none⟩
  commits _ := true

theorem succeeds_ofFiles (files : FileSystem) : (ofFiles files).Succeeds files where
  commits _ := rfl
  reads path content present := ⟨rfl, 0, by simp only [attempt, ofFiles, present]⟩
  missing path absent := by simp only [ofFiles, absent]

end PassOutcome

/-- `apply_pending_archive_changes` from its snapshot on: the store and the database after it. -/
def applyPendingArchiveChanges (crates : Crates) (archiveRoot : String) (outcome : PassOutcome) :
    List (String × UInt64) → ArchiveStore → SearchDb → ArchiveStore × SearchDb
  | [], store, db => (store, db)
  | (path, generation) :: rest, store, db =>
      match ingestPaths crates archiveRoot db [outcome.attempt path] with
      | (.ok (), db) =>
          applyPendingArchiveChanges crates archiveRoot outcome rest
            (store.clearDirtyPathIfUnchanged path generation).2 db
      | (.error _, db) =>
          applyPendingArchiveChanges crates archiveRoot outcome rest store db

section Pass

variable {crates : Crates} {archiveRoot : String} {outcome : PassOutcome} {files : FileSystem}

/-- One entry: its mark is cleared when its transaction is committed. -/
theorem applyPendingArchiveChanges_cons (path : String) (generation : UInt64)
    (rest : List (String × UInt64)) (store : ArchiveStore) (db : SearchDb) :
    applyPendingArchiveChanges crates archiveRoot outcome ((path, generation) :: rest) store db =
      match attemptPath crates archiveRoot db (outcome.attempt path) with
      | some committed =>
          applyPendingArchiveChanges crates archiveRoot outcome rest
            (store.clearDirtyPathIfUnchanged path generation).2 committed
      | none => applyPendingArchiveChanges crates archiveRoot outcome rest store db := by
  rw [applyPendingArchiveChanges, ingestPaths, ingestPathStream]
  cases attemptPath crates archiveRoot db (outcome.attempt path) with
  | none => rfl
  | some committed => rfl

/-- A file that is found as it is can be ingested, whatever the index knows of it. -/
theorem exists_ingestFile (crates : Crates) (archiveRoot : String) (db : SearchDb)
    (path : String) (content : List UInt8) (mtime : ℕ) :
    ∃ after, ingestFile crates archiveRoot db path (prefixAccess content mtime) = .ok after := by
  cases known : identify crates archiveRoot path with
  | none => exact ⟨db, by rw [ingestFile, known]⟩
  | some file =>
      obtain ⟨after, ran, _⟩ := ingestFile_of_readable known db ⟨content.length, mtime⟩ content
      exact ⟨after, ran⟩

/-- The indexer does not fail on a path for good: its file exists, or it is skipped. -/
def IsIngestible (crates : Crates) (archiveRoot : String) (files : FileSystem)
    (path : String) : Prop :=
  (∃ content, files path = some (.file content)) ∨ identify crates archiveRoot path = none

/-- When everything succeeds, a transaction is rolled back exactly for a missing file. -/
theorem PassOutcome.Succeeds.isSome_attemptPath (succeeds : outcome.Succeeds files)
    (crates : Crates) (archiveRoot : String) {path : String} (regular : files path ≠ some .other)
    (db : SearchDb) :
    (attemptPath crates archiveRoot db (outcome.attempt path)).isSome ↔
      IsIngestible crates archiveRoot files path := by
  have commits : (outcome.attempt path).transaction = true := succeeds.commits path
  rw [attemptPath, if_pos commits]
  change (ingestFile crates archiveRoot db path (outcome.access path)).toOption.isSome ↔ _
  cases there : files path with
  | none =>
      have absent := succeeds.missing path there
      cases known : identify crates archiveRoot path with
      | none => simp [IsIngestible, ingestFile, known, Except.toOption]
      | some file => simp [IsIngestible, ingestFile, known, absent, there, Except.toOption]
  | some entry =>
      cases entry with
      | other => exact absurd there regular
      | file content =>
          obtain ⟨_, mtime, read⟩ := succeeds.reads path content there
          have found : outcome.access path = prefixAccess content mtime := read
          obtain ⟨after, ran⟩ := exists_ingestFile crates archiveRoot db path content mtime
          rw [found, ran]
          exact iff_of_true rfl (.inl ⟨content, there⟩)

/-- When everything succeeds, the pass finds every file as it is. -/
theorem PassOutcome.Succeeds.isCurrent (succeeds : outcome.Succeeds files) (path : String) :
    (FileVisit.loaded (outcome.access path).metadata (outcome.access path).content).IsCurrent
      files path := by
  intro content present
  obtain ⟨_, mtime, read⟩ := succeeds.reads path content present
  have found : outcome.access path = prefixAccess content mtime := read
  rw [found]
  exact ⟨by simp [prefixAccess], by simp [prefixAccess]⟩

/-- What a pass leaves of the marks: it clears those of its snapshot for which the transaction is
committed. -/
theorem generation_applyPendingArchiveChanges {finishes : String → Prop}
    {todo : List (String × UInt64)} {store : ArchiveStore} {db : SearchDb}
    (decided : ∀ entry ∈ todo, ∀ db,
      (attemptPath crates archiveRoot db (outcome.attempt entry.1)).isSome ↔ finishes entry.1)
    (once : (todo.map Prod.fst).Nodup)
    (marked : ∀ entry ∈ todo, store.generation entry.1 = some entry.2) (path : String) :
    (applyPendingArchiveChanges crates archiveRoot outcome todo store db).1.generation path =
        none ↔
      store.generation path = none ∨ path ∈ todo.map Prod.fst ∧ finishes path := by
  induction todo generalizing store db with
  | nil => simp [applyPendingArchiveChanges]
  | cons entry rest ih =>
      obtain ⟨current, generation⟩ := entry
      obtain ⟨fresh, once⟩ := List.nodup_cons.mp once
      have own := marked (current, generation) List.mem_cons_self
      have outcomes := decided (current, generation) List.mem_cons_self db
      have decided (entry) (member : entry ∈ rest) := decided entry (List.mem_cons_of_mem _ member)
      have others (entry) (member : entry ∈ rest) : entry.1 ≠ current := fun same =>
        fresh (List.mem_map.mpr ⟨entry, member, same⟩)
      cases attempted : attemptPath crates archiveRoot db (outcome.attempt current) with
      | none =>
          have stuck : ¬ finishes current := by simpa [attempted] using outcomes
          rw [applyPendingArchiveChanges_cons, attempted]
          rw [ih decided once fun entry member => marked entry (List.mem_cons_of_mem _ member)]
          by_cases same : path = current
          · subst same
            simp [stuck]
          · simp [same]
      | some committed =>
          have finished : finishes current := by simpa [attempted] using outcomes
          rw [applyPendingArchiveChanges_cons, attempted]
          rw [ih decided once]
          · rw [ArchiveStore.generation_clearDirtyPathIfUnchanged]
            by_cases same : path = current
            · subst same
              simp [own, finished]
            · simp [same]
          · intro entry member
            rw [ArchiveStore.generation_clearDirtyPathIfUnchanged, if_neg fun both =>
              others entry member both.1]
            exact marked entry (List.mem_cons_of_mem _ member)

/-- The entries of a snapshot in any order. -/
def ArchiveStore.Lists (store : ArchiveStore) (todo : List (String × UInt64)) : Prop :=
  todo.Perm (store.snapshotDirtyPaths.entries.map fun entry => (entry.1, entry.2))

/-- A pass in which everything succeeds leaves nothing dirty exactly when every dirty path is one
that the indexer can finish. -/
theorem PassOutcome.Succeeds.drains_iff (succeeds : outcome.Succeeds files)
    {store : ArchiveStore} {todo : List (String × UInt64)} {db : SearchDb}
    (listed : store.Lists todo)
    (regular : ∀ path, (store.generation path).isSome → files path ≠ some .other) :
    (applyPendingArchiveChanges crates archiveRoot outcome todo store db).1.dirtyPaths = ∅ ↔
      ∀ path, (store.generation path).isSome → IsIngestible crates archiveRoot files path := by
  obtain ⟨once, marked⟩ := store.snapshot_listed listed
  have decided (entry : String × UInt64) (member : entry ∈ todo) (db : SearchDb) :=
    succeeds.isSome_attemptPath crates archiveRoot
      (regular entry.1 (by rw [(marked entry).mp member]; rfl)) db
  rw [ArchiveStore.dirtyPaths_eq_empty_iff]
  apply forall_congr'
  intro path
  rw [generation_applyPendingArchiveChanges decided once fun entry => (marked entry).mp]
  cases found : store.generation path with
  | none => simp
  | some generation =>
      have member : path ∈ todo.map Prod.fst :=
        List.mem_map.mpr ⟨(path, generation), (marked _).mpr found, rfl⟩
      simp [member]

end Pass

namespace Indexer

variable {crates : Crates} {outcome : PassOutcome} {state : Indexer}

/-- The state after a pass that nothing interrupts. -/
def applied (crates : Crates) (outcome : PassOutcome) (todo : List (String × UInt64))
    (state : Indexer) : Indexer :=
  let result := applyPendingArchiveChanges crates state.root outcome todo state.store state.db
  { state with
    store := result.1
    db := result.2
    pass := .between [] }

/-- The steps of a pass that nothing interrupts. -/
theorem runs_applied {todo : List (String × UInt64)} (between : state.pass = .between todo)
    (unlocked : state.Unlocked)
    (current : ∀ path, (FileVisit.loaded (outcome.access path).metadata
      (outcome.access path).content).IsCurrent state.files path) :
    Relation.ReflTransGen (PassStep crates) state (state.applied crates outcome todo) := by
  induction todo generalizing state with
  | nil =>
      have finished : state.applied crates outcome [] = state := by
        simp only [applied, applyPendingArchiveChanges, ← between]
      rw [finished]
  | cons entry rest ih =>
      obtain ⟨path, generation⟩ := entry
      let access := outcome.access path
      let visiting (visit : FileVisit) : Indexer :=
        { state with pass := .ingesting path generation visit rest }
      have start : PassStep crates state (visiting .begun) := .start path generation rest between
      have stat : PassStep crates (visiting .begun) (visiting (.stated access.metadata)) :=
        .look path generation _ _ rest rfl (.stat _ fun content present =>
          (current path content present).1)
      have load : PassStep crates (visiting (.stated access.metadata))
          (visiting (.loaded access.metadata access.content)) :=
        .look path generation _ _ rest rfl (.load _ _ fun content present =>
          (current path content present).2)
      refine .head start (.head stat (.head load ?_))
      cases attempted : attemptPath crates state.root state.db (outcome.attempt path) with
      | none =>
          let failed : Indexer := { state with pass := .between rest }
          have fail : PassStep crates (visiting (.loaded access.metadata access.content)) failed :=
            .fail path generation _ rest rfl
          have later : Relation.ReflTransGen (PassStep crates) failed
              (failed.applied crates outcome rest) := ih rfl unlocked current
          refine .head fail ?_
          rw [applied, applyPendingArchiveChanges_cons, attempted]
          exact later
      | some committed =>
          have ran : ingestFile crates state.root state.db path access = .ok committed := by
            unfold attemptPath at attempted
            split at attempted
            · exact eq_ok_of_toOption attempted
            · cases attempted
          let store := (state.store.clearDirtyPathIfUnchanged path generation).2
          let ingested : Indexer :=
            { state with db := committed, pass := .committed path generation rest }
          let cleared : Indexer := { state with store, db := committed, pass := .between rest }
          have commit : PassStep crates (visiting (.loaded access.metadata access.content))
              ingested := .commit path generation _ _ rest committed rfl ran
          have clear : PassStep crates ingested cleared := .clear path generation rest rfl unlocked
          have later : Relation.ReflTransGen (PassStep crates) cleared
              (cleared.applied crates outcome rest) := ih rfl unlocked current
          have root : archiveRoot store.dataDir = state.root :=
            congrArg archiveRoot (state.store.dataDir_clearDirtyPathIfUnchanged path generation)
          refine .head commit (.head clear ?_)
          rw [applied, Indexer.root, root] at later
          rw [applied, applyPendingArchiveChanges_cons, attempted]
          exact later

/-- A whole pass that nothing interrupts is one of the passes of the indexer. -/
theorem runs_pass {todo : List (String × UInt64)} (idle : state.pass = .idle)
    (unlocked : state.Unlocked) (listed : state.store.Lists todo)
    (current : ∀ path, (FileVisit.loaded (outcome.access path).metadata
      (outcome.access path).content).IsCurrent state.files path) :
    Relation.ReflTransGen (PassStep crates) state
      { state.applied crates outcome todo with pass := .idle, marks := fun _ => 0 } := by
  let begun : Indexer := { state with pass := .between todo, marks := fun _ => 0 }
  have snapshot : PassStep crates state begun := .snapshot todo idle unlocked listed
  have entries : Relation.ReflTransGen (PassStep crates) begun
      (begun.applied crates outcome todo) := runs_applied rfl unlocked current
  exact .head snapshot (entries.tail (.finish rfl))

end Indexer

namespace ConcurrentRecorder

/-- A path is dirty, active or being written. -/
def IsInUse (state : ConcurrentRecorder) (path : String) : Prop :=
  (state.store.generation path).isSome ∨ path ∈ state.store.activePaths ∨
    state.BeingWritten path

variable {crates : Crates} {reads : NaiveDateTime → Prop} {before after : ConcurrentRecorder}

@[simp] theorem store_idle (recorder : Recorder) : (idle recorder).store = recorder.store := rfl

@[simp] theorem files_idle (recorder : Recorder) : (idle recorder).files = recorder.files := rfl

/-- The paths in use while a call goes on. -/
theorem isInUse_withCall {id : ℕ} {call : Option HandleLine} {path : String}
    (used : (before.withCall id call).IsInUse path) :
    before.IsInUse path ∨ (call >>= HandleLine.writes) = some path := by
  rcases used with dirty | active | writing
  · exact .inl (.inl dirty)
  · exact .inl (.inr (.inl active))
  · rcases (beingWritten_withCall ..).mp writing with own | ⟨other, _, running, found, writes⟩
    · exact .inr own
    · exact .inl (.inr (.inr ⟨other, running, found, writes⟩))

/-- A mark takes one path into use. -/
theorem isInUse_markDirty {path written : String}
    (used : (before.withStore (before.store.markDirty written)).IsInUse path) :
    before.IsInUse path ∨ path = written := by
  rcases used with dirty | active | writing
  · rw [store_withStore, ArchiveStore.generation_markDirty] at dirty
    split at dirty
    · next same => exact .inr same
    · exact .inl (.inl dirty)
  · exact .inl (.inr (.inl active))
  · exact .inl (.inr (.inr writing))

/-- A step takes no path into use, except for a file that it creates. -/
theorem Step.isInUse (stepped : Step crates reads before after) {path : String}
    (used : after.IsInUse path) : before.IsInUse path ∨
      before.files path = none ∧ after.files = before.files.create path := by
  cases stepped with
  | enter _ _ _ _ _ _ | skip _ _ _ _ _ _ | lockOpen _ _ _ _ _ _ _ _ _ =>
      refine .inl ((isInUse_withCall used).resolve_right ?_)
      simp [HandleLine.writes]
  | lockAppend id stream line now active _ _ found _ =>
      rcases isInUse_withCall used with old | own
      · exact .inl old
      · refine .inl (.inr (.inl ((ArchiveStore.mem_activePaths _ _).mpr ?_)))
        exact ⟨stream, active, found, Option.some.inj own⟩
  | append id written chunk rest appending =>
      rcases isInUse_withCall used with old | own
      · exact .inl old
      · exact .inl (.inr (.inr ⟨id, _, appending, own⟩))
  | mark id written appending =>
      rcases isInUse_withCall used with marked | own
      · rcases isInUse_markDirty marked with old | rfl
        · exact .inl old
        · exact .inl (.inr (.inr ⟨id, _, appending, rfl⟩))
      · cases own
  | create id stream line now program suffix active _ _ free =>
      rcases isInUse_withCall used with old | own
      · exact .inl old
      · cases Option.some.inj own
        exact .inr ⟨free, rfl⟩
  | write id stream now active chunk rest writing =>
      rcases isInUse_withCall used with old | own
      · exact .inl old
      · exact .inl (.inr (.inr ⟨id, _, writing, own⟩))
  | register id stream now active writing _ =>
      have held : before.IsInUse active.path := .inr (.inr ⟨id, _, writing, rfl⟩)
      rcases isInUse_withCall used with (dirty | member | busy) | own
      · rcases isInUse_markDirty (.inl dirty) with old | rfl
        · exact .inl old
        · exact .inl held
      · rcases ArchiveStore.mem_activePaths_replaceActive _ _ _ member with rfl | old
        · exact .inl held
        · exact .inl (.inr (.inl old))
      · exact .inl (.inr (.inr busy))
      · cases own
  | deactivate stream _ =>
      rcases used with dirty | member | busy
      · exact .inl (.inl dirty)
      · exact .inl (.inr (.inl (ArchiveStore.mem_activePaths_deactivateStream _ _ _ member)))
      · exact .inl (.inr (.inr busy))

/-- A step leaves a path alone, or there is a file at it afterwards. -/
theorem Step.files (stepped : Step crates reads before after) (path : String) :
    after.files path = before.files path ∨ ∃ content, after.files path = some (.file content) := by
  have append (written : String) (chunk : List UInt8) :
      before.files.append written chunk path = before.files path ∨
        ∃ content, before.files.append written chunk path = some (.file content) := by
    by_cases own : path = written
    · subst own
      cases there : before.files path with
      | none => exact .inl (by simp only [FileSystem.append, there])
      | some entry =>
          cases entry with
          | other => exact .inl (by simp only [FileSystem.append, there])
          | file content =>
              refine .inr ⟨content ++ chunk, ?_⟩
              rw [FileSystem.append_file there, Function.update_self]
    · exact .inl (FileSystem.append_other _ own _)
  cases stepped with
  | enter _ _ _ _ _ _ | skip _ _ _ _ _ _ | lockAppend _ _ _ _ _ _ _ _ _ | mark _ _ _
  | lockOpen _ _ _ _ _ _ _ _ _ | register _ _ _ _ _ _ | deactivate _ _ => exact .inl rfl
  | append _ written chunk _ _ => exact append written chunk
  | write _ _ _ active chunk _ _ => exact append active.path chunk
  | create _ _ _ _ _ _ active _ _ _ =>
      by_cases own : path = active.path
      · exact .inr ⟨[], by rw [own]; exact Function.update_self ..⟩
      · exact .inl (FileSystem.create_other _ own)

/-- What stands at every path in use is admitted. -/
def Holds (admits : Option Entry → Prop) (state : ConcurrentRecorder) : Prop :=
  ∀ path, state.IsInUse path → admits (state.files path)

variable {admits : Option Entry → Prop}

theorem Holds.step (regular : ∀ content, admits (some (.file content)))
    (holds : before.Holds admits) (stepped : Step crates reads before after) :
    after.Holds admits := by
  intro path used
  rcases stepped.files path with same | ⟨content, there⟩
  · rcases stepped.isInUse used with old | ⟨_, created⟩
    · exact same ▸ holds path old
    · rw [created, FileSystem.create, Function.update_self]
      exact regular []
  · exact there ▸ regular content

/-- What is written to an unlinked file is lost, and the path still holds what it has held. -/
theorem Holds.lose (holds : before.Holds admits) (stepped : Step crates reads before after)
    {lost : String} (present : before.files lost ≠ none)
    (changed : after.files lost ≠ before.files lost) :
    (after.withFiles before.files).Holds admits := by
  intro path used
  rcases stepped.isInUse used with old | ⟨free, created⟩
  · exact holds path old
  · -- the step that creates a file changes no other path, so the lost one is the new one
    have same : lost = path := by
      by_contra different
      rw [created, FileSystem.create_other _ different] at changed
      exact changed rfl
    exact absurd (same ▸ free) present

/-- A path that is in use may lose its file only if nothing is admitted there. -/
theorem Holds.unlink (holds : before.Holds admits) {path : String}
    (spared : before.IsInUse path → admits none) :
    (before.withFiles (Function.update before.files path none)).Holds admits := by
  intro other used
  rw [files_withFiles]
  by_cases own : other = path
  · subst own
    rw [Function.update_self]
    exact spared used
  · rw [Function.update_of_ne own]
    exact holds other used

/-- A call that is given up takes nothing into use. -/
theorem Holds.drop (holds : before.Holds admits) (id : ℕ) :
    (before.withCall id none).Holds admits := by
  intro path used
  rcases isInUse_withCall used with old | own
  · exact holds path old
  · cases own

end ConcurrentRecorder

namespace ConcurrentRecorder.Holds

variable {crates : Crates} {admits : Option Entry → Prop}

/-- The indexer takes nothing into use and leaves the files alone. -/
theorem pass {before after : Indexer} (holds : before.Holds admits)
    (stepped : Indexer.PassStep crates before after) : after.Holds admits := by
  cases stepped with
  | snapshot _ _ _ _ | start _ _ _ _ | look _ _ _ _ _ _ _ | fail _ _ _ _ _
  | commit _ _ _ _ _ _ _ _ | finish _ => exact holds
  | clear path generation todo _ _ =>
      intro other used
      refine holds other (used.imp (fun dirty => ?_) (Or.imp (fun active => ?_) id))
      · rw [ArchiveStore.generation_clearDirtyPathIfUnchanged] at dirty
        split at dirty
        · cases dirty
        · exact dirty
      · rwa [ArchiveStore.activePaths_clearDirtyPathIfUnchanged] at active

/-- A step of the loop that removes no file. -/
theorem maintain {failures : Failures} {before after : Maintenance}
    (regular : ∀ content, admits (some (.file content))) (holds : before.Holds admits)
    (stepped : Maintenance.Step crates failures before after)
    (same : after.files = before.files) : after.Holds admits := by
  cases stepped with
  | record recorder moved => exact holds.step regular moved
  | fail id recorder fails _ =>
      cases fails with
      | fail call _ => exact holds.drop id
  | lose recorder path moved _ present changed => exact holds.lose moved present changed
  | apply after _ passed => exact holds.pass passed
  | unlink path content _ _ =>
      intro other used
      rw [same]
      exact holds other used
  | wake _ | openFails _ | opened _ | visit _ _ _ _ | look _ _ _ _ _ _ | commit _ _ _ _ _ _ _
  | visitFails _ _ _ _ _ | walkFails _ _ _ _ | gone _ _ _ _ | scanned _ | tidy _ _
  | check _ _ _ _ _ _ _ _ | cleaned _ _ _ | cleanupFails _ _ _ _ | rest _ | collect _
  | collected _ => exact holds

end ConcurrentRecorder.Holds

/-- Anything that is not guaranteed may fail. -/
def Failures.any : Failures := ⟨fun _ _ => True, fun _ _ => True, fun _ _ => True⟩

/-- The recorder, the maintenance loop and its garbage collection, with the wall clock. -/
structure ArchiveService extends Maintenance where
  clock : Instant
  collection : GarbagePass

namespace ArchiveService

def withMaintenance (state : ArchiveService) (maintenance : Maintenance) : ArchiveService :=
  { state with toMaintenance := maintenance }

/-- The state after a step of the recorder. -/
def withRecorder (state : ArchiveService) (recorder : ConcurrentRecorder) : ArchiveService :=
  state.withMaintenance (state.toMaintenance.withIndexer (state.recording recorder))

/-- The recorder and the pass of `collect_garbage`. -/
def collecting (state : ArchiveService) : GarbageCollection :=
  ⟨state.toConcurrentRecorder, state.clock, state.collection⟩

/-- The steps of the recorder, the maintenance loop and the garbage collection. Any file operation
of a call may fail. -/
inductive Step (crates : Crates) (retention : ℕ) (before : ArchiveService) :
    ArchiveService → Prop where
  | tick (later : Instant) : before.clock ≤ later →
      Step crates retention before { before with clock := later }
  | record (recorder : ConcurrentRecorder) :
      ConcurrentRecorder.Step crates (GarbageCollection.Reads before.clock)
        before.toConcurrentRecorder recorder →
      Step crates retention before (before.withRecorder recorder)
  | lose (recorder : ConcurrentRecorder) (path : String) :
      ConcurrentRecorder.Step crates (GarbageCollection.Reads before.clock)
        before.toConcurrentRecorder recorder →
      path ∈ before.unlinked → before.files path ≠ none →
      recorder.files path ≠ before.files path →
      Step crates retention before (before.withRecorder (recorder.withFiles before.files))
  | fail (id : ℕ) :
      Step crates retention before
        (before.withRecorder (before.toConcurrentRecorder.withCall id none))
  /-- A step of the loop itself. A garbage collection starts anew each time. -/
  | maintain (after : Maintenance) :
      Maintenance.Step crates .any before.toMaintenance after →
      after.files = before.files → after.calls = before.calls →
      Step crates retention before
        { before with
          toMaintenance := after
          collection :=
            match after.phase with
            | .collecting => before.collection
            | _ => .notStarted }
  | compute (cutoff : Instant) : before.phase = .collecting →
      before.collection = .notStarted →
      retentionCutoff crates.chrono before.clock retention = .ok cutoff →
      Step crates retention before { before with collection := .cutoff cutoff }
  | snapshot (cutoff : Instant) : before.phase = .collecting →
      before.collection = .cutoff cutoff → before.Unlocked →
      Step crates retention before
        { before with collection := .walking cutoff before.store.activePaths }
  | unlink (path : String) : before.phase = .collecting →
      before.collecting.Unlinks crates path →
      Step crates retention before
        (before.withMaintenance
          { before.toMaintenance with
            files := Function.update before.files path none
            unlinked := insert path before.unlinked })

/-- The process starts with a retention that `validate_retention` accepts. -/
structure Start (crates : Crates) (retention : ℕ) (state : ArchiveService) : Prop where
  maintenance : Maintenance.Start crates state.toMaintenance
  retention : validateRetention crates.chrono state.clock retention = .ok ()
  collection : state.collection = .notStarted

def Run (crates : Crates) (retention : ℕ) : ArchiveService → Prop :=
  Transition.Reachable (Start crates retention) (Step crates retention)

/-- No file goes while its path is dirty, active or being written. -/
def SparesInUse (before after : ArchiveService) : Prop :=
  ∀ path, before.IsInUse path → before.files path ≠ none → after.files path ≠ none

/-- Reached by a run in which the garbage collection unlinks no file whose path is in use. -/
def SparingRun (crates : Crates) (retention : ℕ) : ArchiveService → Prop :=
  Transition.Reachable (Start crates retention)
    (Transition.Restricted (Step crates retention) SparesInUse)

/-- The store after a pass of `apply_pending_archive_changes` that nothing interrupts. -/
def storeAfterPass (crates : Crates) (outcome : PassOutcome) (todo : List (String × UInt64))
    (state : ArchiveService) : ArchiveStore :=
  (state.toIndexer.applied crates outcome todo).store

variable {crates : Crates} {retention : ℕ} {before after state : ArchiveService}
  {admits : Option Entry → Prop}

/-- The indexer of the loop can make such a pass, which leaves that store. -/
theorem runs_storeAfterPass {outcome : PassOutcome} {todo : List (String × UInt64)}
    (succeeds : outcome.Succeeds state.files) (listed : state.store.Lists todo)
    (idle : state.toIndexer.pass = .idle) (unlocked : state.Unlocked) :
    ∃ indexer : Indexer, Relation.ReflTransGen (Indexer.PassStep crates) state.toIndexer indexer ∧
      indexer.pass = .idle ∧ indexer.store = state.storeAfterPass crates outcome todo :=
  ⟨_, Indexer.runs_pass idle unlocked listed succeeds.isCurrent, rfl, rfl⟩

/-- What stands at every path in use is admitted. -/
def PathsHold (admits : Option Entry → Prop) (state : ArchiveService) : Prop :=
  state.toConcurrentRecorder.Holds admits

theorem PathsHold.start (started : state.Start crates retention) : state.PathsHold admits := by
  intro path used
  have store := started.maintenance.store
  rcases used with dirty | active | ⟨id, call, found, _⟩
  · rw [store] at dirty
    cases dirty
  · rw [store] at active
    cases active
  · rw [started.maintenance.idle id] at found
    cases found

/-- Every step keeps what the paths in use hold, unless it removes the file of one. -/
theorem PathsHold.step (regular : ∀ content, admits (some (.file content)))
    (holds : before.PathsHold admits) (stepped : Step crates retention before after)
    (removed : ∀ path, before.IsInUse path → before.files path ≠ none →
      after.files path = none → admits none) : after.PathsHold admits := by
  cases stepped with
  | tick _ _ | compute _ _ _ _ | snapshot _ _ _ _ => exact holds
  | record recorder moved => exact ConcurrentRecorder.Holds.step regular holds moved
  | lose recorder path moved _ present changed =>
      exact ConcurrentRecorder.Holds.lose holds moved present changed
  | fail id => exact ConcurrentRecorder.Holds.drop holds id
  | maintain after stepped same _ =>
      exact ConcurrentRecorder.Holds.maintain regular holds stepped same
  | unlink path _ unlinks =>
      obtain ⟨_, _, _, _, ⟨content, present⟩, _, _⟩ := unlinks
      apply ConcurrentRecorder.Holds.unlink holds
      intro used
      have there : before.files path = some (.file content) := present
      exact removed path used (by simp [there]) (Function.update_self ..)

/-- In every run, a path in use holds a file or nothing. -/
theorem PathsHold.run (run : Run crates retention state) :
    state.PathsHold (· ≠ some .other) := by
  refine Transition.Reachable.invariant ?_ ?_ run
  · exact fun _ => PathsHold.start
  · intro before after _ holds stepped
    exact holds.step nofun stepped fun _ _ _ _ => nofun

/-- In a run that spares them, the paths in use have their files. -/
theorem PathsHold.sparingRun (run : SparingRun crates retention state) :
    state.PathsHold fun entry => ∃ content, entry = some (.file content) := by
  refine Transition.Reachable.invariant ?_ ?_ run
  · exact fun _ => PathsHold.start
  · intro before after _ holds ⟨stepped, spares⟩
    refine holds.step (fun content => ⟨content, rfl⟩) stepped fun path used present gone => ?_
    exact absurd gone (spares path used present)

/-- After any run, a pass in which everything succeeds leaves no path dirty exactly when every
dirty path still has its file, or is one that the indexer skips. -/
theorem Run.drains_iff (run : Run crates retention state) {outcome : PassOutcome}
    {todo : List (String × UInt64)} (succeeds : outcome.Succeeds state.files)
    (listed : state.store.Lists todo) :
    (state.storeAfterPass crates outcome todo).dirtyPaths = ∅ ↔
      ∀ path, (state.store.generation path).isSome →
        IsIngestible crates state.root state.files path :=
  succeeds.drains_iff listed fun path dirty => PathsHold.run run path (.inl dirty)

/-- The dirty set drains. After a run in which the garbage collection unlinks no file whose path
is dirty, active or being written, one pass in which everything succeeds leaves no path dirty.
After any other run it does so exactly when every dirty path still has its file, or is one that
the indexer skips. -/
theorem dirty_paths_drain {outcome : PassOutcome} {todo : List (String × UInt64)}
    (succeeds : outcome.Succeeds state.files) (listed : state.store.Lists todo) :
    (SparingRun crates retention state →
      (state.storeAfterPass crates outcome todo).dirtyPaths = ∅) ∧
    (Run crates retention state →
      ((state.storeAfterPass crates outcome todo).dirtyPaths = ∅ ↔
        ∀ path, (state.store.generation path).isSome →
          IsIngestible crates state.root state.files path)) := by
  refine ⟨fun sparing => ?_, fun run => run.drains_iff succeeds listed⟩
  have run : Run crates retention state := sparing.unrestricted
  apply (run.drains_iff succeeds listed).mpr
  intro path dirty
  exact .inl (PathsHold.sparingRun sparing path (.inl dirty))

/-- The recorder removes no file. -/
theorem SparesInUse.of_record {recorder : ConcurrentRecorder} {reads : NaiveDateTime → Prop}
    (moved : ConcurrentRecorder.Step crates reads before.toConcurrentRecorder recorder) :
    SparesInUse before (before.withRecorder recorder) := by
  intro path _ present
  change recorder.files path ≠ none
  rcases moved.files path with same | ⟨content, there⟩
  · rwa [same]
  · simp [there]

/-- The recorder may go on by itself. -/
theorem SparingRun.records (run : SparingRun crates retention state)
    {recorder : ConcurrentRecorder}
    (records : Relation.ReflTransGen
      (ConcurrentRecorder.Step crates (GarbageCollection.Reads state.clock))
      state.toConcurrentRecorder recorder) :
    ∃ after, SparingRun crates retention after ∧ after.toConcurrentRecorder = recorder ∧
      after.clock = state.clock ∧ after.collection = state.collection ∧
        after.phase = state.phase ∧ after.connected = state.connected ∧
          after.toIndexer.pass = state.toIndexer.pass := by
  induction records with
  | refl => exact ⟨state, run, rfl, rfl, rfl, rfl, rfl, rfl⟩
  | tail _ moved ih =>
      obtain ⟨middle, reached, rfl, clock, rest⟩ := ih
      rw [← clock] at moved
      exact ⟨middle.withRecorder _, reached.next ⟨.record _ moved, .of_record moved⟩, rfl, clock,
        rest⟩

/-- The loop goes on to another phase before a garbage collection has started. -/
theorem SparingRun.proceeds (run : SparingRun crates retention state)
    (notStarted : state.collection = .notStarted) {phase : MaintenancePhase}
    (stepped : Maintenance.Step crates .any state.toMaintenance
      (state.toMaintenance.withPhase phase)) :
    SparingRun crates retention
      (state.withMaintenance (state.toMaintenance.withPhase phase)) := by
  have same : state.withMaintenance (state.toMaintenance.withPhase phase) =
      { state with
        toMaintenance := state.toMaintenance.withPhase phase
        collection :=
          match (state.toMaintenance.withPhase phase).phase with
          | .collecting => state.collection
          | _ => .notStarted } := by
    unfold withMaintenance
    congr 1
    split
    · rfl
    · exact notStarted
  rw [same]
  exact run.next ⟨.maintain _ stepped rfl rfl, fun _ _ => id⟩

/-- While the database cannot be opened, a garbage collection becomes due. -/
theorem SparingRun.comes_to_collect (run : SparingRun crates retention state)
    (notStarted : state.collection = .notStarted) (opening : state.phase = .opening)
    (unconnected : state.connected = false) :
    SparingRun crates retention
      (state.withMaintenance (state.toMaintenance.withPhase .collecting)) := by
  have failed := run.proceeds notStarted (.openFails opening)
  have slept := failed.proceeds notStarted (.rest rfl)
  have woken := slept.proceeds notStarted (.wake (.inl rfl))
  have again : (if state.connected then MaintenancePhase.applying else .opening) = .opening := by
    rw [unconnected]
    rfl
  have failed := woken.proceeds notStarted (.openFails again)
  exact failed.proceeds notStarted (.collect rfl)

/-- The collection unlinks the only file and ends, and the database is opened and finds nothing to
scan. -/
theorem Run.comes_to_apply (run : Run crates retention state) {path : String}
    (collecting : state.phase = .collecting) (unconnected : state.connected = false)
    (unlinks : state.collecting.Unlinks crates path)
    (alone : ∀ other ≠ path, state.files other = none) :
    ∃ after, Run crates retention after ∧ after.phase = .applying ∧
      after.toConcurrentRecorder = state.toConcurrentRecorder.withFiles (fun _ => none) ∧
        after.toIndexer.pass = state.toIndexer.pass := by
  have gone : Function.update state.files path none = fun _ => none := by
    funext other
    by_cases own : other = path
    · rw [own, Function.update_self]
    · rw [Function.update_of_ne own, alone other own]
  have unlinked := Transition.Reachable.next run (.unlink path collecting unlinks)
  rw [gone] at unlinked
  have sleeping : (if state.connected then MaintenancePhase.tidying true else .sleeping) =
      .sleeping := by
    rw [unconnected]
    rfl
  have opening : (if state.connected then MaintenancePhase.applying else .opening) = .opening := by
    rw [unconnected]
    rfl
  have collected := unlinked.next (.maintain _ (.collected collecting) rfl rfl)
  have woken := collected.next (.maintain _ (.wake (.inl sleeping)) rfl rfl)
  have opened := woken.next (.maintain _ (.opened opening) rfl rfl)
  have nothing (maintenance : Maintenance) (empty : maintenance.files = fun _ => none) :
      maintenance.archived = ∅ := by
    apply Set.eq_empty_of_forall_notMem
    intro other ⟨⟨content, present⟩, _⟩
    rw [empty] at present
    cases present
  have scanned := opened.next
    (.maintain _ (.scanned (congrArg (MaintenancePhase.scanning · none) (nothing _ rfl))) rfl rfl)
  exact ⟨_, scanned, rfl, rfl, rfl⟩

end ArchiveService

namespace Sample

/-- Nothing has been recorded, and there are no files. -/
def emptyService : ArchiveService where
  toMaintenance := { oneFile with files := fun _ => none }
  clock := (clockHalfPast 1).instant
  collection := .notStarted

end Sample

namespace ArchiveService

theorem start_emptyService : Start Sample.crates (10 ^ 9) Sample.emptyService where
  maintenance := {
    idle := fun _ => rfl
    store := rfl
    db := .initial rfl
    pass := rfl
    recorded := rfl
    phase := rfl
    connected := rfl
    cleanupPending := rfl
    unlinked := rfl }
  retention := by decide +kernel
  collection := rfl

/-- A file is recorded and its stream ends, while the database cannot be opened and a garbage
collection with a retention of a second becomes due. The file then expires, and is dirty. -/
theorem exists_dirty_expired_path : ∃ state, SparingRun Sample.crates (10 ^ 9) state ∧
    (state.phase = .collecting ∧ state.connected = false ∧ state.toIndexer.pass = .idle ∧
      state.Idle) ∧
    state.collecting.Unlinks Sample.crates (Sample.heldFile 1).path ∧
      (∀ other ≠ (Sample.heldFile 1).path, state.files other = none) ∧
        (state.store.generation (Sample.heldFile 1).path).isSome ∧
          state.root = archiveRoot "data" := by
  let active := Sample.heldFile 1
  let store := (ArchiveStore.new "data").replaceActive "nhk" active
  let recorder : Recorder := (Recorder.new "data" fun _ => none).started "nhk" active
    Sample.newsLine
  let cutoff := (Sample.clockHalfPast 3).instant.minus (10 ^ 9)
  have header : lineProgram Sample.crates Sample.newsLine = some (some Sample.news) := by
    decide +kernel
  have handled : (Recorder.new "data" fun _ => none).Handled Sample.crates "nhk" Sample.newsLine
      (Sample.clockHalfPast 1) (some (.programStarted active.path)) recorder :=
    .start Sample.news 0 active header nofun rfl rfl
  have records : Relation.ReflTransGen (ConcurrentRecorder.Step Sample.crates
      (GarbageCollection.Reads (Sample.clockHalfPast 1).instant)) _ _ :=
    ConcurrentRecorder.runs_handled handled ⟨rfl, by decide⟩
  have ended : ConcurrentRecorder.Step Sample.crates
      (GarbageCollection.Reads (Sample.clockHalfPast 1).instant) (ConcurrentRecorder.idle recorder)
      (ConcurrentRecorder.idle ⟨store.deactivateStream "nhk", recorder.files⟩) :=
    .deactivate "nhk" (ConcurrentRecorder.Idle.unlocked fun _ => rfl)
  have start : SparingRun Sample.crates (10 ^ 9) Sample.emptyService :=
    .initial start_emptyService
  obtain ⟨state, recorded, quiet, clock, notStarted, phase, unconnected, between⟩ :=
    start.records (records.tail ended)
  have stored : state.store = store.deactivateStream "nhk" := by
    rw [quiet, ConcurrentRecorder.store_idle]
  have filed : state.files = recorder.files := by
    rw [quiet, ConcurrentRecorder.files_idle]
  have idle : state.Idle := by
    rw [quiet]
    exact fun _ => rfl
  -- two seconds later the collection starts
  have early : state.clock ≤ (Sample.clockHalfPast 3).instant := by
    rw [clock]
    decide +kernel
  have computed : retentionCutoff Sample.crates.chrono (Sample.clockHalfPast 3).instant (10 ^ 9) =
      .ok cutoff := by decide +kernel
  have due := recorded.comes_to_collect notStarted phase unconnected
  have ticked := due.next ⟨.tick _ early, fun _ _ => id⟩
  have limited := ticked.next ⟨.compute cutoff rfl notStarted computed, fun _ _ => id⟩
  have walking := limited.next ⟨.snapshot cutoff rfl rfl idle.unlocked, fun _ _ => id⟩
  have named : (streamMonthFilename (archiveRoot state.store.dataDir) active.path).isSome := by
    rw [stored]
    decide +kernel
  have present : state.files active.path = some (.file (lineBytes Sample.newsLine)) := by
    rw [filed]
    exact Recorder.files_started ..
  have alone (other : String) (different : other ≠ active.path) : state.files other = none := by
    rw [filed, Recorder.files_started_other _ _ _ _ different]
    rfl
  have inactive : active.path ∉ state.store.activePaths := by
    rw [stored]
    decide +kernel
  have dirty : (state.store.generation active.path).isSome := by
    rw [stored]
    decide +kernel
  have root : archiveRoot state.store.dataDir = archiveRoot "data" := by
    rw [stored, ArchiveStore.dataDir_deactivateStream, ArchiveStore.dataDir_replaceActive]
    rfl
  exact ⟨_, walking, ⟨rfl, unconnected, between, idle⟩,
    ⟨cutoff, _, rfl, named, ⟨_, present⟩, by decide +kernel, inactive⟩, alone, dirty, root⟩

/-- With a retention of a second, the file that a stream has left behind when it ended is unlinked
before it could be indexed. Once the database can be opened, no pass gets rid of its mark. -/
theorem collected_path_stays_dirty : ¬ ∀ (crates : Crates) (retention : ℕ)
    (state : ArchiveService), Run crates retention state → state.phase = .applying →
      state.toIndexer.pass = .idle → state.Idle →
        ∀ (outcome : PassOutcome) (todo : List (String × UInt64)),
          outcome.Succeeds state.files → state.store.Lists todo →
            (state.storeAfterPass crates outcome todo).dirtyPaths = ∅ := by
  intro claim
  obtain ⟨before, run, ⟨collecting, unconnected, between, idle⟩, unlinks, alone, dirty, root⟩ :=
    exists_dirty_expired_path
  obtain ⟨after, run, applying, same, pass⟩ :=
    Run.comes_to_apply run.unrestricted collecting unconnected unlinks alone
  have succeeds : (PassOutcome.ofFiles after.files).Succeeds after.files :=
    PassOutcome.succeeds_ofFiles _
  have quiet : after.Idle := by
    rw [same]
    exact idle
  have marked : (after.store.generation (Sample.heldFile 1).path).isSome := by
    rw [same]
    exact dirty
  have drained := claim _ _ after run applying (pass.trans between) quiet _ _ succeeds
    (List.Perm.refl _)
  have readable : (identify Sample.crates (archiveRoot "data") (Sample.heldFile 1).path).isSome :=
    (isSome_identify_archivePath Sample.crates "data" "nhk" Sample.news
      (Sample.clockHalfPast 1) 0).mpr (by decide)
  rcases (run.drains_iff succeeds (List.Perm.refl _)).mp drained _ marked with
    ⟨content, there⟩ | skipped
  · rw [same] at there
    cases there
  · have rooted : after.root = archiveRoot "data" := by
      rw [Indexer.root, same]
      exact root
    rw [← rooted, skipped] at readable
    cases readable

/-- Before the collection goes on, a pass over the same file clears its mark. -/
theorem dirty_paths_drain_sample : ∃ state path,
    SparingRun Sample.crates (10 ^ 9) state ∧ (state.store.generation path).isSome ∧
      ∀ todo, state.store.Lists todo →
        (state.storeAfterPass Sample.crates (.ofFiles state.files) todo).dirtyPaths = ∅ := by
  obtain ⟨state, run, _, _, _, dirty, _⟩ := exists_dirty_expired_path
  exact ⟨state, _, run, dirty, fun todo listed =>
    (dirty_paths_drain (PassOutcome.succeeds_ofFiles _) listed).1 run⟩

end ArchiveService

end AribcapDb
