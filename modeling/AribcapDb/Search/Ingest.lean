import AribcapDb.Archive.Recorder
import AribcapDb.Foundation.Framing
import AribcapDb.Search.Schema

/-! # Ingesting archive files

The statements of the indexer and the functions that run them: one transaction for one file
(`ingestFile`), a pass over paths (`ingestPathStream`), the full scan (`ingestOnce`) and the
removal of rows whose files are gone (`cleanupIndexForDeletedFiles`). What the operating system
answers about a file is a parameter; `stat` and the later read need not agree. -/

namespace AribcapDb

structure ArchiveFileMetadata where
  sizeBytes : ℕ
  mtime : ℕ
  deriving DecidableEq, Repr

/-- What `stat_archive_file` and `read_archive_tail` find at a path; `none` is a failure. -/
structure FileAccess where
  metadata : Option ArchiveFileMetadata
  content : Option (List UInt8)
  deriving DecidableEq, Repr

/-- The columns that `upsert_program` takes from a present EIT. -/
def programMetadata (unicode : Unicode) (eit : EitPresent) : ProgramMetadata :=
  { startTime := eit.startTime
    durationSec := eit.durationSec
    title := eit.title
    description := eit.description
    version := eit.version
    serviceId := eit.serviceId
    transportStreamId := eit.transportStreamId
    originalNetworkId := eit.originalNetworkId
    eventId := eit.eventId
    normalizedTitle := searchIndexText unicode eit.title
    normalizedDescription := searchIndexText unicode eit.description }

namespace SearchDb

/-- `mark_indexing_error`. -/
def markIndexingError (db : SearchDb) (path : String) (programId : Option ℕ)
    (sizeBytes mtime : ℕ) (lastError : String) : SearchDb :=
  db.upsertIndexedFiles
    (fun old => { old with status := .error, sizeBytes, mtime, lastError := some lastError })
    ⟨path, programId, sizeBytes, mtime, 0, 0, .error, some lastError⟩

/-- `demote_to_duplicate`. -/
def demoteToDuplicate (db : SearchDb) (path winnerPath : String) : SearchDb :=
  let lastError :=
    "superseded by (stream, recording_started_at) collision winner " ++ winnerPath
  db.updateIndexedFiles (fun row => row.path = path) fun row =>
    { row with programId := none, status := .duplicate, lastError := some lastError }

/-- `mark_recording_started_at_collision_loser`. -/
def markRecordingStartedAtCollisionLoser (db : SearchDb)
    (stream recordingStartedAt path : String) (sizeBytes mtime : ℕ) : Bool × SearchDb :=
  match db.groupProgram stream recordingStartedAt with
  | none => (false, db)
  | some existing =>
      if existing.path ≤ path then (false, db)
      else
        let lastError := "lost (stream, recording_started_at) collision to " ++ existing.path
        (true, db.upsertIndexedFiles
          (fun old =>
            { old with
              programId := none, sizeBytes, mtime, indexedOffset := 0, indexedLines := 0
              status := .duplicate, lastError := some lastError })
          ⟨path, none, sizeBytes, mtime, 0, 0, .duplicate, some lastError⟩)

/-- `upsert_indexed_file`. -/
def upsertIndexedFile (db : SearchDb) (path : String) (programId : Option ℕ)
    (sizeBytes mtime indexedOffset indexedLines : ℕ) : SearchDb :=
  db.upsertIndexedFiles
    (fun old =>
      { old with
        programId, sizeBytes, mtime, indexedOffset, indexedLines
        status := .ok, lastError := none })
    ⟨path, programId, sizeBytes, mtime, indexedOffset, indexedLines, .ok, none⟩

/-- The `INSERT INTO programs` of `upsert_program` with its two conflict clauses; it returns the
id of the row. -/
def upsertProgramRow (db : SearchDb) (file : FileIdentity) (metadata : ProgramMetadata) :
    ℕ × SearchDb :=
  match db.programs.find? fun row => row.path = file.path with
  | some old =>
      (old.id, db.updatePrograms (fun row => row.id = old.id) fun row => { row with metadata })
  | none =>
      match db.groupProgram file.stream file.recordingStartedAt with
      | some old =>
          (old.id, db.updatePrograms (fun row => row.id = old.id) fun row =>
            { row with
              month := file.month, filename := file.filename, path := file.path, metadata })
      | none =>
          let id := Table.nextRowid (db.programs.map ProgramRow.id)
          (id, db.insertProgram { file with id, metadata })

/-- `upsert_program`: a program of another path in the group gives up its captions and its id,
and that path becomes a duplicate. -/
def upsertProgram (unicode : Unicode) (db : SearchDb) (file : FileIdentity)
    (eit : EitPresent) : ℕ × SearchDb :=
  let db :=
    match db.groupProgram file.stream file.recordingStartedAt with
    | some existing =>
        if existing.path ≠ file.path then
          (db.deleteCaptions fun row => row.programId = existing.id).demoteToDuplicate
            existing.path file.path
        else db
    | none => db
  let (programId, db) := db.upsertProgramRow file (programMetadata unicode eit)
  let db := db.deleteGenres fun row => row.programId = programId
  (programId, eit.genres.foldl (fun db genre => db.insertGenre ⟨programId, genre⟩) db)

/-- `insert_caption_line`. -/
def insertCaptionLine (unicode : Unicode) (db : SearchDb) (programId lineNo byteOffset : ℕ)
    (caption : CaptionRecord) : SearchDb :=
  let normalizedText := searchIndexText unicode caption.text
  if db.captionLines.any fun row => row.key = (programId, lineNo) then
    db.updateCaptions (fun row => row.key = (programId, lineNo)) fun row =>
      { row with byteOffset, caption, normalizedText }
  else
    db.insertCaption
      { id := Table.nextRowid (db.captionLines.map CaptionRow.id)
        programId, lineNo, byteOffset, caption, normalizedText }

end SearchDb

/-- What a path below the archive root says about its file; `none` is skipped by the indexer. -/
def identify (crates : Crates) (archiveRoot path : String) : Option FileIdentity := do
  let (stream, month, filename) ← streamMonthFilename archiveRoot path
  let recordingStartedAt ← parseRecordingStartedAt crates.chrono filename
  some { stream, month, filename, path, recordingStartedAt }

/-- The variables of the loop over the lines of a file. -/
structure ScanState where
  db : SearchDb
  programId : Option ℕ
  pos : ℕ
  lineNo : ℕ

/-- One terminated line, given without its newline. -/
def ingestLine (crates : Crates) (file : FileIdentity) (state : ScanState)
    (line : List UInt8) : ScanState :=
  let lineStart := state.pos
  let state := { state with pos := state.pos + (line.length + 1), lineNo := state.lineNo + 1 }
  let text := lineText line
  if text = "" then state
  else
    match crates.serde.fromStr text with
    | none => state
    | some value =>
        match eitPresentFromValue value with
        | some eit =>
            let (id, db) := state.db.upsertProgram crates.unicode file eit
            { state with db, programId := some id }
        | none =>
            match captionFromValue value with
            | none => state
            | some caption =>
                match state.programId with
                | none => state
                | some programId =>
                    { state with
                      db := state.db.insertCaptionLine crates.unicode programId state.lineNo
                        lineStart caption }

/-- The loop over `split_inclusive`, which stops at an unterminated line. -/
def ingestPieces (crates : Crates) (file : FileIdentity) :
    ScanState → List (List UInt8) → ScanState
  | state, [] => state
  | state, piece :: rest =>
      if piece.getLast? ≠ some newline then state
      else ingestPieces crates file (ingestLine crates file state piece.dropLast) rest

/-- The part of `ingest_file` that reads the file from `startOffset` and commits what it found. -/
def ingestTail (crates : Crates) (db : SearchDb) (file : FileIdentity)
    (metadata : ArchiveFileMetadata) (content : Option (List UInt8)) (programId : Option ℕ)
    (startOffset lineNo : ℕ) : Except String SearchDb :=
  match content with
  | none => .error ("failed to open " ++ file.path)
  | some content =>
      let buf := content.drop startOffset
      let state := ingestPieces crates file ⟨db, programId, startOffset, lineNo⟩
        (Framing.pieces newline buf)
      .ok (state.db.upsertIndexedFile file.path state.programId metadata.sizeBytes
        metadata.mtime state.pos state.lineNo)

/-- `ingest_file`. -/
def ingestFile (crates : Crates) (archiveRoot : String) (db : SearchDb) (path : String)
    (access : FileAccess) : Except String SearchDb :=
  match identify crates archiveRoot path with
  | none => .ok db
  | some file =>
      match access.metadata with
      | none => .error ("failed to stat " ++ path)
      | some metadata =>
          match db.indexedFile path with
          | some row =>
              if row.status = .duplicate ∨ row.status = .error then .ok db
              else if metadata.sizeBytes < row.indexedOffset then
                let lastError :=
                  "file size " ++ toString metadata.sizeBytes ++
                    " is smaller than indexed_offset " ++ toString row.indexedOffset ++
                    "; rebuild required"
                .ok (db.markIndexingError path row.programId metadata.sizeBytes metadata.mtime
                  lastError)
              else if metadata.sizeBytes = row.indexedOffset then .ok db
              else
                ingestTail crates db file metadata access.content row.programId
                  row.indexedOffset row.indexedLines
          | none =>
              match db.markRecordingStartedAtCollisionLoser file.stream
                  file.recordingStartedAt path metadata.sizeBytes metadata.mtime with
              | (true, marked) => .ok marked
              | (false, db) => ingestTail crates db file metadata access.content none 0 0

/-- One path of a pass: what its file looks like, and whether its transaction can be opened and
committed. -/
structure PathAttempt where
  path : String
  access : FileAccess
  transaction : Bool
  deriving DecidableEq, Repr

/-- The transaction of one path: the committed database, or `none` after a rollback. -/
def attemptPath (crates : Crates) (archiveRoot : String) (db : SearchDb)
    (attempt : PathAttempt) : Option SearchDb :=
  if attempt.transaction then
    (ingestFile crates archiveRoot db attempt.path attempt.access).toOption
  else none

/-- `ingest_path_stream`: every path is attempted, and the first failure is returned. -/
def ingestPathStream (crates : Crates) (archiveRoot : String) :
    SearchDb → List PathAttempt → Except String Unit × SearchDb
  | db, [] => (.ok (), db)
  | db, attempt :: rest =>
      match attemptPath crates archiveRoot db attempt with
      | some committed => ingestPathStream crates archiveRoot committed rest
      | none =>
          (.error ("failed to index " ++ attempt.path),
            (ingestPathStream crates archiveRoot db rest).2)

/-- The paths of a walk that `ingest_once` attempts: walk errors are only logged. -/
def scannedPaths (walk : List (Except String PathAttempt)) : List PathAttempt :=
  walk.filterMap fun
    | .ok attempt => if extension attempt.path = some "jsonl" then some attempt else none
    | .error _ => none

/-- `ingest_once`. -/
def ingestOnce (crates : Crates) (archiveRoot : String) (db : SearchDb)
    (walk : List (Except String PathAttempt)) : Except String Unit × SearchDb :=
  ingestPathStream crates archiveRoot db (scannedPaths walk)

namespace SearchDb

/-- `delete_indexed_path`. -/
def deleteIndexedPath (db : SearchDb) (path : String) : SearchDb :=
  (db.deletePrograms fun row => row.path = path).deleteIndexedFiles fun row => row.path = path

/-- The paths in `programs` and `indexed_files`, each once. -/
def indexedPaths (db : SearchDb) : List String :=
  (db.programs.map (·.path) ++ db.indexedFiles.map IndexedFileRow.path).dedup

/-- `cleanup_index_for_deleted_files`: the number of removed paths and the database after it.
A path whose existence cannot be determined counts as missing. -/
def cleanupIndexForDeletedFiles (db : SearchDb) (tryExists : String → Option Bool) :
    ℕ × SearchDb :=
  let missing := db.indexedPaths.filter fun path => !(tryExists path).getD false
  (missing.length, missing.foldl deleteIndexedPath db)

end SearchDb

/-- The loop over the pieces reads exactly the terminated lines. -/
theorem ingestPieces_pieces (crates : Crates) (file : FileIdentity) (state : ScanState)
    (buf : List UInt8) :
    ingestPieces crates file state (Framing.pieces newline buf) =
      (Framing.frames newline buf).foldl (ingestLine crates file) state := by
  rw [Framing.pieces_eq]
  have tail (state : ScanState) : ingestPieces crates file state
      (if Framing.residue newline buf = [] then [] else [Framing.residue newline buf]) =
        state := by
    split
    · rfl
    · have open' : (Framing.residue newline buf).getLast? ≠ some newline := fun last =>
        Framing.not_mem_residue newline buf (List.mem_of_getLast? last)
      simp [ingestPieces, open']
  generalize Framing.frames newline buf = frames
  induction frames generalizing state with
  | nil => exact tail state
  | cons frame more ih =>
      simp only [List.map_cons, List.cons_append, ingestPieces, List.getLast?_append,
        List.getLast?_singleton, Option.some_or, ne_eq, not_true_eq_false, ↓reduceIte,
        List.dropLast_concat, ih, List.foldl_cons]

/-- The loop body in terms of what the line is. -/
theorem ingestLine_eq (crates : Crates) (file : FileIdentity) (state : ScanState)
    (line : List UInt8) :
    ingestLine crates file state line =
      let advanced : ScanState :=
        { state with pos := state.pos + (line.length + 1), lineNo := state.lineNo + 1 }
      match lineRecord crates.serde line, state.programId with
      | .skipped, _ => advanced
      | .eit eit, _ =>
          { advanced with
            db := (state.db.upsertProgram crates.unicode file eit).2
            programId := some (state.db.upsertProgram crates.unicode file eit).1 }
      | .caption _, none => advanced
      | .caption caption, some programId =>
          { advanced with
            db := state.db.insertCaptionLine crates.unicode programId (state.lineNo + 1)
              state.pos caption } := by
  unfold ingestLine lineRecord
  by_cases empty : lineText line = ""
  · simp [empty, crates.serde.fromStr_empty]
  · simp only [empty, ↓reduceIte]
    cases crates.serde.fromStr (lineText line) with
    | none => rfl
    | some value =>
        cases eit : eitPresentFromValue value with
        | some eit => simp only [eit]
        | none =>
            cases read : captionFromValue value with
            | none => simp only [eit, read]
            | some caption => cases known : state.programId <;> simp only [eit, read]

namespace Sample

/-- A present EIT and a caption. -/
def newsFile : List UInt8 := lineBytes newsLine ++ lineBytes captionLine

/-- Two paths of one collision group. -/
def smallPath : String := "data/archive/nhk/2026-07/2026-07-01_12-00-01.a.jsonl"

def greatPath : String := "data/archive/nhk/2026-07/2026-07-01_12-00-01.b.jsonl"

/-- A file that `stat` and the read find in the same state. -/
def access (content : List UInt8) : FileAccess := ⟨some ⟨content.length, 0⟩, some content⟩

end Sample

end AribcapDb
