import AribcapDb.Archive.Writers
import AribcapDb.Foundation.Transition
import AribcapDb.Search.Progress

/-! # Indexing what the recorder has marked

One indexer goes through a snapshot of the dirty paths while the recorder goes on writing. It
looks at a file without the lock, and clears the mark of a path only when the mark is still the
one of the snapshot. Between two passes every recorded file that is not dirty is indexed up to
its last line, except for files whose names the indexer cannot read
(`recorded_lines_are_indexed`, `unreadable_name_is_not_indexed`). -/

namespace AribcapDb

/-- A position in a file behind its last newline. -/
def IsBehindLines (content : List UInt8) (offset : ℕ) : Prop :=
  offset ≤ content.length ∧ newline ∉ content.drop offset

/-- How far `ingest_file` has got with a path, and what it has found there. -/
inductive FileVisit where
  | begun
  | stated (metadata : Option ArchiveFileMetadata)
  | loaded (metadata : Option ArchiveFileMetadata) (content : Option (List UInt8))

namespace FileVisit

/-- `stat` and the later read find the file as it is at that time, or fail. -/
inductive Step (files : FileSystem) (path : String) : FileVisit → FileVisit → Prop where
  | stat (metadata : Option ArchiveFileMetadata) :
      (∀ content, files path = some (.file content) →
        ∀ found ∈ metadata, found.sizeBytes = content.length) →
      Step files path .begun (.stated metadata)
  | load (metadata : Option ArchiveFileMetadata) (content : Option (List UInt8)) :
      (∀ bytes, files path = some (.file bytes) → ∀ found ∈ content, found = bytes) →
      Step files path (.stated metadata) (.loaded metadata content)

/-- What a visit has found is what the file is. -/
def IsCurrent (files : FileSystem) (path : String) (visit : FileVisit) : Prop :=
  ∀ content, files path = some (.file content) →
    match visit with
    | .begun => True
    | .stated metadata => ∀ found ∈ metadata, found.sizeBytes = content.length
    | .loaded metadata read =>
        (∀ found ∈ metadata, found.sizeBytes = content.length) ∧ ∀ found ∈ read, found = content

/-- What a visit has found is the file up to its last newline at least. -/
def SeesLines (files : FileSystem) (path : String) (visit : FileVisit) : Prop :=
  ∀ content, files path = some (.file content) →
    match visit with
    | .begun => True
    | .stated metadata => ∀ found ∈ metadata, IsBehindLines content found.sizeBytes
    | .loaded metadata read =>
        (∀ found ∈ metadata, IsBehindLines content found.sizeBytes) ∧
          ∀ found ∈ read, found <+: content ∧ IsBehindLines content found.length

end FileVisit

/-- Where `apply_pending_archive_changes` stands. -/
inductive PendingPass where
  | idle
  /-- The entries of the snapshot that are left. -/
  | between (todo : List (String × UInt64))
  | ingesting (path : String) (generation : UInt64) (visit : FileVisit)
      (todo : List (String × UInt64))
  /-- The transaction of the path is committed. -/
  | committed (path : String) (generation : UInt64) (todo : List (String × UInt64))

/-- The entries of the snapshot that are not yet finished. -/
def PendingPass.entries : PendingPass → List (String × UInt64)
  | .idle => []
  | .between todo => todo
  | .ingesting path generation _ todo => (path, generation) :: todo
  | .committed path generation todo => (path, generation) :: todo

/-- The recorder, the committed search database and the indexer. -/
structure Indexer extends ConcurrentRecorder where
  db : SearchDb
  pass : PendingPass
  /-- How often a path has been marked since the last snapshot. -/
  marks : String → ℕ
  /-- The paths that calls have written to. -/
  recorded : Set String

namespace Indexer

/-- The archive root of the store. -/
def root (state : Indexer) : String := archiveRoot state.store.dataDir

/-- The state after a step of the recorder, which may mark paths and write to files. -/
def recording (state : Indexer) (recorder : ConcurrentRecorder) : Indexer :=
  { state with
    toConcurrentRecorder := recorder
    marks := fun path =>
      if recorder.store.generation path = state.store.generation path then state.marks path
      else state.marks path + 1
    recorded := state.recorded ∪ {path | recorder.files path ≠ state.files path} }

/-- The steps of `apply_pending_archive_changes`. The snapshot lists the dirty paths in any
order, and whatever `ingest_paths` does for a path may fail. -/
inductive PassStep (crates : Crates) (before : Indexer) : Indexer → Prop where
  | snapshot (todo : List (String × UInt64)) : before.pass = .idle → before.Unlocked →
      todo.Perm (before.store.snapshotDirtyPaths.entries.map fun entry => (entry.1, entry.2)) →
      PassStep crates before { before with pass := .between todo, marks := fun _ => 0 }
  | start (path : String) (generation : UInt64) (todo : List (String × UInt64)) :
      before.pass = .between ((path, generation) :: todo) →
      PassStep crates before { before with pass := .ingesting path generation .begun todo }
  | look (path : String) (generation : UInt64) (visit next : FileVisit)
      (todo : List (String × UInt64)) :
      before.pass = .ingesting path generation visit todo →
      FileVisit.Step before.files path visit next →
      PassStep crates before { before with pass := .ingesting path generation next todo }
  | fail (path : String) (generation : UInt64) (visit : FileVisit)
      (todo : List (String × UInt64)) :
      before.pass = .ingesting path generation visit todo →
      PassStep crates before { before with pass := .between todo }
  | commit (path : String) (generation : UInt64) (metadata : Option ArchiveFileMetadata)
      (content : Option (List UInt8)) (todo : List (String × UInt64)) (db : SearchDb) :
      before.pass = .ingesting path generation (.loaded metadata content) todo →
      ingestFile crates before.root before.db path ⟨metadata, content⟩ = .ok db →
      PassStep crates before { before with db, pass := .committed path generation todo }
  | clear (path : String) (generation : UInt64) (todo : List (String × UInt64)) :
      before.pass = .committed path generation todo → before.Unlocked →
      PassStep crates before
        { before with
          store := (before.store.clearDirtyPathIfUnchanged path generation).2
          pass := .between todo }
  | finish : before.pass = .between [] → PassStep crates before { before with pass := .idle }

/-- The recorder and the indexer take steps in any order. -/
inductive Step (crates : Crates) (before : Indexer) : Indexer → Prop where
  | record (recorder : ConcurrentRecorder) :
      ConcurrentRecorder.Step crates (fun _ => True) before.toConcurrentRecorder recorder →
      Step crates before (before.recording recorder)
  | index (after : Indexer) : PassStep crates before after → Step crates before after

/-- A process starts with a new store, whatever files and whatever index there are. -/
structure Start (crates : Crates) (state : Indexer) : Prop where
  idle : state.Idle
  store : state.store = .new state.store.dataDir
  db : IndexReachable crates state.root state.db
  pass : state.pass = .idle
  recorded : state.recorded = ∅

/-- No path has been marked `2 ^ 64` times since the snapshot of the pass in progress. -/
def FewMarks (state : Indexer) : Prop :=
  state.pass ≠ .idle → ∀ path, state.marks path < 2 ^ 64

/-- Reached by a run in which no path is marked `2 ^ 64` times within a pass. -/
def Run (crates : Crates) : Indexer → Prop :=
  Transition.Reachable (Start crates)
    (Transition.Restricted (Step crates) fun before _ => before.FewMarks)

/-- The row of a path has a final status, or it ends just after the last newline of the file. -/
def IsIndexed (state : Indexer) (path : String) : Prop :=
  ∃ row, state.db.indexedFile path = some row ∧
    (row.status = .error ∨ row.status = .duplicate ∨
      ∃ content, state.files path = some (.file content) ∧
        row.indexedOffset = Framing.framedLength newline content)

end Indexer

/-- The row of a file has a final status, or the offset that it has reached is good enough. -/
def SearchDb.IsCaughtUp (crates : Crates) (root : String) (reaches : List UInt8 → ℕ → Prop)
    (db : SearchDb) (files : FileSystem) (path : String) : Prop :=
  ∀ content, files path = some (.file content) → (identify crates root path).isSome →
    ∃ row, db.indexedFile path = some row ∧
      (row.status = .ok → reaches content row.indexedOffset)

theorem isBehindLines_length (content : List UInt8) : IsBehindLines content content.length := by
  rw [IsBehindLines, List.drop_length]
  exact ⟨le_rfl, List.not_mem_nil⟩

/-- A position behind the lines of a beginning that has all lines. -/
theorem IsBehindLines.of_beginning {beginning content : List UInt8} {offset : ℕ}
    (behind : IsBehindLines content beginning.length) (inside : beginning <+: content)
    (reached : offset ≤ content.length) (none : newline ∉ beginning.drop offset) :
    IsBehindLines content offset := by
  obtain ⟨tail, rfl⟩ := inside
  have late := behind.2
  rw [List.drop_left] at late
  refine ⟨reached, fun member => ?_⟩
  rw [List.drop_append] at member
  rcases List.mem_append.mp member with early | more
  · exact none early
  · exact late (List.mem_of_mem_drop more)

theorem FileVisit.IsCurrent.seesLines {files : FileSystem} {path : String} {visit : FileVisit}
    (current : visit.IsCurrent files path) : visit.SeesLines files path := by
  intro content present
  have found := current content present
  cases visit with
  | begun => trivial
  | stated metadata =>
      intro metadata' member
      rw [found metadata' member]
      exact isBehindLines_length content
  | loaded metadata read =>
      refine ⟨fun metadata' member => ?_, fun bytes member => ?_⟩
      · rw [found.1 metadata' member]
        exact isBehindLines_length content
      · rw [found.2 bytes member]
        exact ⟨List.prefix_rfl, isBehindLines_length content⟩

theorem FileVisit.Step.seesLines {files : FileSystem} {path : String} {visit next : FileVisit}
    (step : FileVisit.Step files path visit next) (sees : visit.SeesLines files path) :
    next.SeesLines files path := by
  cases step with
  | stat metadata found =>
      have current : FileVisit.IsCurrent files path (.stated metadata) := found
      exact current.seesLines
  | load metadata content found =>
      intro bytes present
      refine ⟨sees bytes present, fun read member => ?_⟩
      rw [found bytes present read member]
      exact ⟨List.prefix_rfl, isBehindLines_length bytes⟩

/-- A scan ends just after the last newline behind the position where it starts. -/
theorem indexedFile_commitScan (crates : Crates) (db : SearchDb) (file : FileIdentity)
    (metadata : ArchiveFileMetadata) (content : List UInt8) (programId : Option ℕ)
    (startOffset lineNo : ℕ) :
    ∃ row, (commitScan crates db file metadata content programId startOffset lineNo).indexedFile
        file.path = some row ∧
      row.indexedOffset = startOffset +
        Framing.framedLength newline (content.drop startOffset) := by
  unfold commitScan
  rw [indexedFile_upsertIndexedFile, if_pos rfl]
  exact ⟨_, rfl, (foldl_ingestLine crates file ⟨db, programId, startOffset, lineNo⟩ _).1⟩

namespace SearchDb.IsCaughtUp

variable {crates : Crates} {root path : String} {reaches : List UInt8 → ℕ → Prop}
  {db after : SearchDb} {files : FileSystem} {metadata : Option ArchiveFileMetadata}
  {content : Option (List UInt8)}

/-- A transaction that has found all lines of a file catches up with it. -/
theorem ingestFile (enough : ∀ content offset, IsBehindLines content offset →
      reaches content offset) (ran : ingestFile crates root db path ⟨metadata, content⟩ = .ok after)
    (sees : (FileVisit.loaded metadata content).SeesLines files path) :
    after.IsCaughtUp crates root reaches files path := by
  intro bytes present known
  obtain ⟨size, read⟩ := sees bytes present
  cases ingestFile_cases ran with
  | unidentified skipped =>
      rw [skipped] at known
      cases known
  | sticky row found status => exact ⟨row, found, fun ok => absurd ok status⟩
  | current row metadata' stat found _ equal =>
      exact ⟨row, found, fun _ => enough bytes _ (equal ▸ size metadata' stat)⟩
  | lost own winner row _ absent _ _ path' _ status =>
      refine ⟨row, ?_, fun ok => absurd ok (by simp [status])⟩
      rw [SearchDb.indexedFile_upsertIndexedFiles _ _ _ fun _ equal => equal.symm,
        if_pos path'.symm, absent]
      rfl
  | shrunk row metadata' lastError _ found _ _ =>
      exact ⟨_, indexedFile_markIndexingError found _ _ _ _, nofun⟩
  | scanned own metadata' content' programId startOffset lineNo _ path' stat read' starts =>
      obtain ⟨inside, behind⟩ := read content' read'
      obtain ⟨row, found, offset⟩ := indexedFile_commitScan crates db own metadata' content'
        programId startOffset lineNo
      refine ⟨row, path' ▸ found, fun _ => enough bytes _ (behind.of_beginning inside ?_ ?_)⟩
      · have scanned := Framing.framedLength_le newline (content'.drop startOffset)
        rw [List.length_drop] at scanned
        have longer := inside.length_le
        have started : startOffset ≤ bytes.length := by
          cases starts with
          | resume row _ _ larger => exact larger.le.trans (size metadata' stat).1
          | fresh _ _ => exact Nat.zero_le _
        omega
      · rw [offset, ← List.drop_drop, Framing.drop_framedLength]
        exact Framing.not_mem_residue newline _

/-- A transaction of another path keeps up, or demotes the row. -/
theorem ingestFile_other (caughtUp : db.IsCaughtUp crates root reaches files path)
    (formed : WellFormed crates root db) {other : String}
    (ran : AribcapDb.ingestFile crates root db other ⟨metadata, content⟩ = .ok after)
    (different : path ≠ other) : after.IsCaughtUp crates root reaches files path := by
  cases identified : identify crates root other with
  | none => rwa [ingestFile_of_unidentified identified ran]
  | some file =>
      obtain rfl := path_of_identify identified
      intro bytes present known
      obtain ⟨row, found, rest⟩ := caughtUp bytes present known
      have ownership := (ingestFile_cases ran).ownership formed identified
      rcases ownership.rows different with same | ⟨_, demoted, _, status, there⟩
      · exact ⟨row, same.trans found, rest⟩
      · exact ⟨demoted, there, fun ok => absurd ok (by simp [status])⟩

theorem congr (caughtUp : db.IsCaughtUp crates root reaches files path) {grown : FileSystem}
    (same : grown path = files path) : db.IsCaughtUp crates root reaches grown path := by
  intro content present
  exact caughtUp content (same ▸ present)

end SearchDb.IsCaughtUp

namespace Indexer

variable {crates : Crates} {root path : String} {reaches : List UInt8 → ℕ → Prop}
  {before after state : Indexer}

/-- Nothing of a file is lost: it is dirty, a call will mark it, or the index has caught up. -/
def IsKnown (crates : Crates) (root : String) (reaches : List UInt8 → ℕ → Prop)
    (state : Indexer) (path : String) : Prop :=
  (state.store.generation path).isSome ∨ state.BeingWritten path ∨
    state.db.IsCaughtUp crates root reaches state.files path

/-- The invariant of a pass: the mark of an unfinished path is the one of the snapshot and what
has been added to it, and what was found of a path that has not been marked since is still
there, unless a call is about to mark it. -/
structure Tracks (crates : Crates) (root : String) (reaches : List UInt8 → ℕ → Prop)
    (state : Indexer) : Prop where
  rooted : state.root = root
  formed : WellFormed crates root state.db
  entries : ∀ entry ∈ state.pass.entries, state.store.generation entry.1 =
    some (entry.2 + UInt64.ofNat (state.marks entry.1))
  once : (state.pass.entries.map Prod.fst).Nodup
  visit : ∀ path generation visit todo, state.pass = .ingesting path generation visit todo →
    state.marks path = 0 → state.BeingWritten path ∨ visit.SeesLines state.files path
  committed : ∀ path generation todo, state.pass = .committed path generation todo →
    state.marks path = 0 → state.BeingWritten path ∨
      state.db.IsCaughtUp crates root reaches state.files path

/-- Between two passes only the index itself matters. -/
theorem Tracks.of_idle (rooted : state.root = root) (formed : WellFormed crates root state.db)
    (idle : state.pass = .idle) : Tracks crates root reaches state where
  rooted := rooted
  formed := formed
  entries := by simp [idle, PendingPass.entries]
  once := by simp [idle, PendingPass.entries]
  visit := by simp [idle]
  committed := by simp [idle]

section Recording

variable {recorder : ConcurrentRecorder}

theorem marks_recording (path : String) : (state.recording recorder).marks path =
    if recorder.store.generation path = state.store.generation path then state.marks path
    else state.marks path + 1 := rfl

/-- What was true of the file of an unmarked path stays true until a call writes to it. -/
theorem recording_unmarked
    (effect : ConcurrentRecorder.Effect state.toConcurrentRecorder recorder path)
    {holds still : Prop} (unmarked : state.marks path = 0 → state.BeingWritten path ∨ holds)
    (keeps : recorder.files path = state.files path → holds → still) :
    (state.recording recorder).marks path = 0 → recorder.BeingWritten path ∨ still := by
  intro zero
  rw [marks_recording] at zero
  cases effect with
  | marked generation _ =>
      have changed : recorder.store.generation path ≠ state.store.generation path := by
        rw [generation]
        cases state.store.generation path <;> simp
      rw [if_neg changed] at zero
      exact absurd zero (Nat.succ_ne_zero _)
  | written _ writing => exact .inl writing
  | untouched generation files writing =>
      rw [if_pos generation] at zero
      rcases unmarked zero with busy | held
      · exact .inl (writing.mpr busy)
      · exact .inr (keeps files held)

/-- A mark that is added is counted. -/
theorem generation_recording
    (effect : ConcurrentRecorder.Effect state.toConcurrentRecorder recorder path)
    {generation : UInt64} (found : state.store.generation path =
      some (generation + UInt64.ofNat (state.marks path))) :
    recorder.store.generation path =
      some (generation + UInt64.ofNat ((state.recording recorder).marks path)) := by
  rw [marks_recording]
  cases effect with
  | marked new _ =>
      rw [found, Option.getD_some] at new
      have changed : recorder.store.generation path ≠ state.store.generation path := by
        rw [new, found]
        simp
      rw [if_neg changed, new, UInt64.ofNat_add, ← UInt64.add_assoc]
      rfl
  | written kept _ | untouched kept _ _ => rw [if_pos kept, kept, found]

theorem Tracks.recording (tracks : Tracks crates root reaches state)
    (effects : ∀ path, ConcurrentRecorder.Effect state.toConcurrentRecorder recorder path)
    (dataDir : recorder.store.dataDir = state.store.dataDir) :
    Tracks crates root reaches (state.recording recorder) where
  rooted := (congrArg archiveRoot dataDir).trans tracks.rooted
  formed := tracks.formed
  entries entry member := generation_recording (effects _) (tracks.entries entry member)
  once := tracks.once
  visit path generation visit todo ingesting := by
    apply recording_unmarked (effects path) (tracks.visit path generation visit todo ingesting)
    intro same sees content present
    exact sees content (same ▸ present)
  committed path generation todo ingested := by
    apply recording_unmarked (effects path) (tracks.committed path generation todo ingested)
    intro same caughtUp
    exact caughtUp.congr same

/-- A step of the recorder changes a file only where the mark or the call shows it. -/
theorem kept_recording (effect : ConcurrentRecorder.Effect state.toConcurrentRecorder recorder path)
    {holds still : Prop}
    (known : (state.store.generation path).isSome ∨ state.BeingWritten path ∨ holds)
    (keeps : recorder.files path = state.files path → holds → still) :
    (recorder.store.generation path).isSome ∨ recorder.BeingWritten path ∨ still := by
  cases effect with
  | marked generation _ => exact .inl (by rw [generation]; rfl)
  | written _ writing => exact .inr (.inl writing)
  | untouched generation files writing =>
      rcases known with dirty | busy | held
      · exact .inl (by rwa [generation])
      · exact .inr (.inl (writing.mpr busy))
      · exact .inr (.inr (keeps files held))

/-- A path that a step has written to is known afterwards, and one that is known stays so. -/
theorem isKnown_recording
    (effect : ConcurrentRecorder.Effect state.toConcurrentRecorder recorder path)
    (known : state.IsKnown crates root reaches path ∨ recorder.files path ≠ state.files path) :
    (state.recording recorder).IsKnown crates root reaches path := by
  have either : (state.store.generation path).isSome ∨ state.BeingWritten path ∨
      state.db.IsCaughtUp crates root reaches state.files path ∨
        recorder.files path ≠ state.files path := by
    rcases known with (dirty | busy | caughtUp) | changed
    · exact .inl dirty
    · exact .inr (.inl busy)
    · exact .inr (.inr (.inl caughtUp))
    · exact .inr (.inr (.inr changed))
  apply kept_recording effect either
  rintro same (caughtUp | changed)
  · exact caughtUp.congr same
  · exact absurd same changed

end Recording

section Pass

/-- Finishing an entry leaves the marks of the others alone. -/
theorem Tracks.rest (tracks : Tracks crates root reaches state) {path : String}
    {generation : UInt64} {todo : List (String × UInt64)}
    (entries : state.pass.entries = (path, generation) :: todo) :
    (∀ entry ∈ todo, entry.1 ≠ path ∧ state.store.generation entry.1 =
      some (entry.2 + UInt64.ofNat (state.marks entry.1))) ∧ (todo.map Prod.fst).Nodup := by
  have once := tracks.once
  rw [entries, List.map_cons, List.nodup_cons] at once
  refine ⟨fun entry member => ⟨?_, ?_⟩, once.2⟩
  · intro same
    exact once.1 (List.mem_map.mpr ⟨entry, member, same⟩)
  · exact tracks.entries entry (entries ▸ List.mem_cons_of_mem _ member)

theorem Tracks.pass (tracks : Tracks crates root reaches before)
    (enough : ∀ content offset, IsBehindLines content offset → reaches content offset)
    (stepped : PassStep crates before after) : Tracks crates root reaches after := by
  obtain ⟨rooted, formed, entries, once, visited, committed⟩ := tracks
  cases stepped with
  | snapshot todo _ _ listed =>
      obtain ⟨names, marked⟩ := before.store.snapshot_listed listed
      refine ⟨rooted, formed, fun entry member => ?_, names, nofun, nofun⟩
      have found := (marked entry).mp member
      simpa using found
  | start path generation todo between =>
      rw [between] at entries once
      refine ⟨rooted, formed, entries, once, ?_, nofun⟩
      rintro _ _ _ _ ⟨⟩ _
      exact .inr fun _ _ => trivial
  | look path generation visit next todo ingesting looked =>
      rw [ingesting] at entries once
      refine ⟨rooted, formed, entries, once, ?_, nofun⟩
      rintro _ _ _ _ ⟨⟩ unmarked
      exact (visited _ _ _ _ ingesting unmarked).imp_right looked.seesLines
  | fail path generation visit todo ingesting =>
      obtain ⟨others, rest⟩ := Tracks.rest
        ⟨rooted, formed, entries, once, visited, committed⟩ (congrArg PendingPass.entries ingesting)
      exact ⟨rooted, formed, fun entry member => (others entry member).2, rest, nofun, nofun⟩
  | commit path generation metadata content todo db ingesting ran =>
      rw [ingesting] at entries once
      rw [rooted] at ran
      refine ⟨rooted, formed.ingestFile ran, entries, once, nofun, ?_⟩
      rintro _ _ _ ⟨⟩ unmarked
      rcases visited _ _ _ _ ingesting unmarked with busy | sees
      · exact .inl busy
      · exact .inr (.ingestFile enough ran sees)
  | clear path generation todo ingested _ =>
      obtain ⟨others, rest⟩ := Tracks.rest
        ⟨rooted, formed, entries, once, visited, committed⟩ (congrArg PendingPass.entries ingested)
      refine ⟨?_, formed, ?_, rest, nofun, nofun⟩
      · have same := before.store.dataDir_clearDirtyPathIfUnchanged path generation
        exact (congrArg archiveRoot same).trans rooted
      · intro entry member
        obtain ⟨different, kept⟩ := others entry member
        rw [ArchiveStore.generation_clearDirtyPathIfUnchanged, if_neg fun ⟨same, _⟩ =>
          different same]
        exact kept
  | finish between =>
      exact ⟨rooted, formed, nofun, List.nodup_nil, nofun, nofun⟩

/-- A mark that is the one of the snapshot has not been renewed since. -/
theorem Tracks.unmarked (tracks : Tracks crates root reaches state) (few : state.FewMarks)
    {generation : UInt64} {todo : List (String × UInt64)}
    (entries : state.pass.entries = (path, generation) :: todo)
    (unchanged : state.store.generation path = some generation) : state.marks path = 0 := by
  have active : state.pass ≠ .idle := by
    intro idle
    rw [idle] at entries
    cases entries
  have marked := tracks.entries (path, generation) (entries ▸ List.mem_cons_self)
  rw [unchanged, Option.some.injEq] at marked
  have zero : UInt64.ofNat (state.marks path) = 0 := by simpa using marked.symm
  have back := congrArg UInt64.toNat zero
  rwa [UInt64.toNat_ofNat_of_lt' (by simpa using few active path)] at back

/-- A pass gives up a mark only when the index has caught up with the file. -/
theorem Tracks.isKnown (tracks : Tracks crates root reaches before) (few : before.FewMarks)
    (stepped : PassStep crates before after) (known : before.IsKnown crates root reaches path) :
    after.IsKnown crates root reaches path := by
  cases stepped with
  | snapshot _ _ _ _ | start _ _ _ _ | look _ _ _ _ _ _ _ | fail _ _ _ _ _ | finish _ =>
      exact known
  | commit other generation metadata content todo db ingesting ran =>
      rcases known with dirty | busy | caughtUp
      · exact .inl dirty
      · exact .inr (.inl busy)
      · by_cases same : path = other
        · -- the entry of a path that is being ingested is still marked
          have entry := tracks.entries (other, generation)
            (by rw [ingesting]; exact List.mem_cons_self)
          exact .inl (by rw [same, entry]; rfl)
        · rw [tracks.rooted] at ran
          exact .inr (.inr (caughtUp.ingestFile_other tracks.formed ran same))
  | clear other generation todo ingested _ =>
      have cleared := before.store.generation_clearDirtyPathIfUnchanged other generation path
      by_cases removed : path = other ∧ before.store.generation other = some generation
      · obtain ⟨rfl, unchanged⟩ := removed
        have unmarked := tracks.unmarked few (congrArg PendingPass.entries ingested) unchanged
        exact .inr (tracks.committed _ _ _ ingested unmarked)
      · rw [if_neg removed] at cleared
        rcases known with dirty | rest
        · exact .inl (by rwa [cleared])
        · exact .inr rest

end Pass

/-- The invariant of the run: the files are made of lines, and every recorded file is known. -/
structure Remembers (crates : Crates) (state : Indexer) : Prop where
  tracks : Tracks crates state.root IsBehindLines state
  lines : WritesLines state.toConcurrentRecorder state.recorded ∅
  known : ∀ path ∈ state.recorded, state.IsKnown crates state.root IsBehindLines path

namespace Remembers

theorem start (started : state.Start crates) : Remembers crates state where
  tracks := .of_idle rfl started.db.wellFormed started.pass
  lines := by
    rw [started.recorded]
    apply WritesLines.start started.idle
    rw [started.store]
    rfl
  known := by simp [started.recorded]

theorem step (remembers : Remembers crates before) (few : before.FewMarks)
    (stepped : Step crates before after) : Remembers crates after := by
  have rooted {next : Indexer} (tracks : Tracks crates before.root IsBehindLines next)
      (lines : WritesLines next.toConcurrentRecorder next.recorded ∅)
      (known : ∀ path ∈ next.recorded, next.IsKnown crates before.root IsBehindLines path) :
      Remembers crates next := by
    have same := tracks.rooted
    exact ⟨same ▸ tracks, lines, same ▸ known⟩
  cases stepped with
  | record recorder moved =>
      apply rooted (remembers.tracks.recording moved.effect moved.dataDir)
        (remembers.lines.step moved)
      intro path member
      apply isKnown_recording (moved.effect path)
      exact member.imp_left (remembers.known path)
  | index after passed =>
      have known (path : String) (member : path ∈ before.recorded) :
          after.IsKnown crates before.root IsBehindLines path :=
        remembers.tracks.isKnown few passed (remembers.known path member)
      have tracks := remembers.tracks.pass (fun _ _ => id) passed
      cases passed with
      | snapshot _ _ _ _ | start _ _ _ _ | look _ _ _ _ _ _ _ | fail _ _ _ _ _
      | commit _ _ _ _ _ _ _ _ | finish _ => exact rooted tracks remembers.lines known
      | clear path generation _ _ _ =>
          refine rooted tracks (remembers.lines.withStore ?_) known
          intro active member
          rw [ArchiveStore.activePaths_clearDirtyPathIfUnchanged] at member
          exact .inl member

theorem run (run : Run crates state) : Remembers crates state := by
  refine Transition.Reachable.invariant ?_ ?_ run
  · intro state started
    exact .start started
  · intro before after _ remembers ⟨stepped, few⟩
    exact remembers.step few stepped

end Remembers

/-- While no call is in progress, every recorded file with a readable name that is not dirty is
indexed up to its last newline. -/
theorem recorded_lines_are_indexed (run : Run crates state) (quiet : state.Idle) :
    ∀ path ∈ state.recorded, state.store.generation path = none →
      (identify crates state.root path).isSome → state.IsIndexed path := by
  intro path member clean readable
  have remembers := Remembers.run run
  obtain ⟨content, present, whole, _⟩ := remembers.lines.whole path member
  have still : ¬ state.BeingWritten path := by
    rintro ⟨id, call, found, _⟩
    rw [quiet id] at found
    cases found
  rcases remembers.known path member with dirty | busy | caughtUp
  · rw [clean] at dirty
    cases dirty
  · exact absurd busy still
  · obtain ⟨row, found, reads⟩ := caughtUp content present readable
    refine ⟨row, found, ?_⟩
    cases status : row.status with
    | error => exact .inl rfl
    | duplicate => exact .inr (.inl rfl)
    | ok =>
        obtain ⟨bound, read⟩ := reads status
        refine .inr (.inr ⟨content, present, ?_⟩)
        -- What is left of the file has no newline, and the file ends with one.
        have closed := whole still (Set.notMem_empty path)
        have ended := Framing.length_le_of_residue_eq_nil newline closed read
        have split := Framing.framedLength_add_residue newline content
        rw [closed, List.length_nil] at split
        omega

/-- Between two passes the recorder may go on. -/
theorem Run.record (run : Run crates state) (idle : state.pass = .idle)
    {recorder : ConcurrentRecorder}
    (records : Relation.ReflTransGen (ConcurrentRecorder.Step crates fun _ => True)
      state.toConcurrentRecorder recorder) :
    ∃ after, Run crates after ∧ after.toConcurrentRecorder = recorder ∧ after.db = state.db ∧
      after.pass = .idle ∧ ∀ path, recorder.files path ≠ state.files path →
        path ∈ after.recorded := by
  induction records with
  | refl => exact ⟨state, run, rfl, rfl, idle, fun path changed => absurd rfl changed⟩
  | tail _ moved ih =>
      obtain ⟨middle, reached, rfl, db, between, recorded⟩ := ih
      refine ⟨middle.recording _, reached.next ⟨.record _ moved, fun busy => absurd between busy⟩,
        rfl, db, between, ?_⟩
      intro path changed
      by_cases same : middle.files path = state.files path
      · exact .inr fun still => changed (still.trans same)
      · exact .inl (recorded path same)

/-- A pass over one dirty file of an idle recorder. -/
theorem Run.pass (run : Run crates state) (idle : state.pass = .idle) {recorder : Recorder}
    (quiet : state.toConcurrentRecorder = ConcurrentRecorder.idle recorder)
    {generation : UInt64} (dirty : recorder.store.dirtyPaths.entries = [⟨path, generation⟩])
    {content : List UInt8} (present : recorder.files path = some (.file content))
    {db : SearchDb} (ran : ingestFile crates (archiveRoot recorder.store.dataDir) state.db path
      ⟨some ⟨content.length, 0⟩, some content⟩ = .ok db) :
    Run crates ⟨.idle ⟨(recorder.store.clearDirtyPathIfUnchanged path generation).2,
      recorder.files⟩, db, .idle, fun _ => 0, state.recorded⟩ := by
  obtain ⟨calls, old, pass, marks, recorded⟩ := state
  subst idle quiet
  have unlocked : (ConcurrentRecorder.idle recorder).Unlocked :=
    ConcurrentRecorder.Idle.unlocked fun _ => rfl
  have unmarked (pass : PendingPass) (db : SearchDb) :
      Indexer.FewMarks ⟨.idle recorder, db, pass, fun _ => 0, recorded⟩ :=
    fun _ _ => Nat.two_pow_pos 64
  have stated (bytes : List UInt8) (there : recorder.files path = some (.file bytes)) :
      ∀ found ∈ some (⟨content.length, 0⟩ : ArchiveFileMetadata),
        found.sizeBytes = bytes.length := by
    rw [present] at there
    cases there
    simp
  have loaded (bytes : List UInt8) (there : recorder.files path = some (.file bytes)) :
      ∀ found ∈ some content, found = bytes := by
    rw [present] at there
    cases there
    simp
  have snapshot := run.next ⟨.index _ (.snapshot [(path, generation)] rfl unlocked
    (by rw [ArchiveStore.snapshotDirtyPaths]; simp [ConcurrentRecorder.idle, dirty])),
    fun busy => absurd rfl busy⟩
  have start := snapshot.next ⟨.index _ (.start path generation [] rfl), unmarked _ _⟩
  have stat := start.next
    ⟨.index _ (.look path generation _ _ [] rfl (.stat _ stated)), unmarked _ _⟩
  have load := stat.next
    ⟨.index _ (.look path generation _ _ [] rfl (.load _ _ loaded)), unmarked _ _⟩
  have commit := load.next ⟨.index _ (.commit path generation _ _ [] db rfl ran), unmarked _ _⟩
  have clear := commit.next ⟨.index _ (.clear path generation [] rfl unlocked), unmarked _ _⟩
  exact clear.next ⟨.index _ (.finish rfl), fun _ _ => Nat.two_pow_pos 64⟩

/-- A new recording, and a pass over it. -/
theorem exists_run_of_ingestFile {dataDir stream line : String} {now : NaiveDateTime}
    {program : Program} {db : SearchDb}
    (header : lineProgram crates line = some (some program))
    (named : path = archivePath crates dataDir stream program now 0)
    (ran : ingestFile crates (archiveRoot dataDir) .migrated path
      ⟨some ⟨(lineBytes line).length, 0⟩, some (lineBytes line)⟩ = .ok db) :
    ∃ state, Run crates state ∧ state.Idle ∧ state.pass = .idle ∧ state.db = db ∧
      state.root = archiveRoot dataDir ∧ path ∈ state.recorded ∧
        state.store.generation path = none := by
  let recorder : Recorder := .new dataDir fun _ => none
  let start : Indexer := ⟨.idle recorder, .migrated, .idle, fun _ => 0, ∅⟩
  have started : Run crates start := .initial ⟨fun _ => rfl, rfl, .initial rfl, rfl, rfl⟩
  have handled : recorder.Handled crates stream line now (some (.programStarted path))
      (recorder.started stream ⟨program.key, path⟩ line) :=
    .start program 0 ⟨program.key, path⟩ header nofun (by rw [named]; rfl) rfl
  obtain ⟨state, run, quiet, old, idle, recorded⟩ :=
    started.record rfl (ConcurrentRecorder.runs_handled handled trivial)
  have present : (recorder.started stream ⟨program.key, path⟩ line).files path =
      some (.file (lineBytes line)) := Recorder.files_started ..
  have dirty : (recorder.started stream ⟨program.key, path⟩ line).store.dirtyPaths.entries =
      [⟨path, 1⟩] := rfl
  have passed := run.pass idle quiet dirty present (by rw [old]; exact ran)
  refine ⟨_, passed, fun _ => rfl, rfl, rfl, ?_, ?_, ?_⟩
  · exact congrArg archiveRoot (ArchiveStore.dataDir_clearDirtyPathIfUnchanged _ _ _)
  · apply recorded
    rw [ConcurrentRecorder.idle, present]
    exact Option.some_ne_none _
  · refine (ArchiveStore.generation_clearDirtyPathIfUnchanged _ _ _ _).trans (if_pos ⟨rfl, ?_⟩)
    rw [Recorder.started, ArchiveStore.generation_replaceActive,
      ArchiveStore.generation_markDirty, if_pos rfl]
    rfl

end Indexer

/-- The indexer reads the name of a recorded file when `%Y` writes its year with four digits. -/
theorem isSome_identify_archivePath (crates : Crates) (dataDir stream : String)
    (program : Program) (now : NaiveDateTime) (suffix : ℕ) :
    (identify crates (archiveRoot dataDir)
        (archivePath crates dataDir stream program now suffix)).isSome ↔
      now.HasFourDigitYear := by
  by_cases years : now.HasFourDigitYear
  · simp [identify, streamMonthFilename_archivePath,
      parseRecordingStartedAt_archiveFilename crates program years, years]
  · simp [identify, streamMonthFilename_archivePath,
      parseRecordingStartedAt_archiveFilename_of_not crates program years, years]

namespace Sample

/-- The first second after the years that have four digits. -/
def lateClock : NaiveDateTime :=
  ⟨10000, 1, 1, 0, 0, 0, 0, by decide, by decide, by decide, zero_lt_sixty, zero_lt_sixty,
    .inl (by decide)⟩

end Sample

namespace Indexer

theorem recorded_lines_are_indexed_sample : ∃ state, Run Sample.crates state ∧
    ∃ path ∈ state.recorded, state.store.generation path = none ∧ state.IsIndexed path := by
  have header : lineProgram Sample.crates Sample.newsLine = some (some Sample.news) := by
    decide +kernel
  have readable := (isSome_identify_archivePath Sample.crates "data" "nhk" Sample.news
    (Sample.clock 1) 0).mpr (by decide)
  obtain ⟨file, identified⟩ := Option.isSome_iff_exists.mp readable
  obtain ⟨db, ran, _⟩ := ingestFile_of_readable identified .migrated
    ⟨(lineBytes Sample.newsLine).length, 0⟩ (lineBytes Sample.newsLine)
  obtain ⟨state, run, quiet, _, _, root, recorded, clean⟩ :=
    exists_run_of_ingestFile header rfl ran
  refine ⟨state, run, _, recorded, clean, ?_⟩
  exact recorded_lines_are_indexed run quiet _ recorded clean (root ▸ readable)

/-- The indexer skips a file that was opened in a year with five digits, and its mark is
cleared. -/
theorem unreadable_name_is_not_indexed : ¬ ∀ (crates : Crates) (state : Indexer),
    Run crates state → state.Idle → state.pass = .idle → ∀ path ∈ state.recorded,
      state.store.generation path = none → state.IsIndexed path := by
  intro claim
  have header : lineProgram Sample.crates Sample.newsLine = some (some Sample.news) := by
    decide +kernel
  have unreadable := (isSome_identify_archivePath Sample.crates "data" "nhk" Sample.news
    Sample.lateClock 0).not.mpr (by decide)
  rw [Option.not_isSome_iff_eq_none] at unreadable
  obtain ⟨state, run, quiet, finished, db, _, recorded, clean⟩ :=
    exists_run_of_ingestFile header rfl (by rw [ingestFile, unreadable])
  obtain ⟨row, found, _⟩ := claim _ state run quiet finished _ recorded clean
  rw [db] at found
  cases found

end Indexer

end AribcapDb
