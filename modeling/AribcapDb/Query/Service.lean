import AribcapDb.Archive.Components
import AribcapDb.Search.Progress
import AribcapDb.Search.RoundTrip

/-! # Program lookups

What the query service answers about recorded programs: the programs that the search database
lists, and the archive file of one of them. Every name that the recorder chooses passes the
checks on the way (`recorded_names_are_accepted`). -/

namespace AribcapDb

/-- `QueryServiceError`; what an internal error says is not sent to the client. -/
inductive QueryServiceError where
  | badRequest (message : String)
  | notFound (message : String)
  | unavailable (message : String)
  | internal
  deriving DecidableEq, Repr

/-- `impl From<io::Error> for QueryServiceError`. -/
def QueryServiceError.ofIoError : IoError → QueryServiceError
  | .invalidInput message => .badRequest message
  | .notFound message => .notFound message
  | .other _ => .internal

/-- `search_db::IndexedProgram`. -/
structure IndexedProgram where
  stream : String
  month : String
  filename : String
  recordingStartedAt : String
  sizeBytes : ℕ
  deriving DecidableEq, Repr

namespace SearchDb

/-- A program left-joined with the row of `indexed_files` for its path. -/
def indexedProgram (db : SearchDb) (program : ProgramRow) : IndexedProgram :=
  { stream := program.stream
    month := program.month
    filename := program.filename
    recordingStartedAt := program.recordingStartedAt
    sizeBytes := ((db.indexedFile program.path).map IndexedFileRow.sizeBytes).getD 0 }

/-- `list_indexed_programs`. -/
def listIndexedPrograms (db : SearchDb) (stream month : String) : List IndexedProgram :=
  let selected := db.programs.filter fun program =>
    program.stream = stream && program.month = month
  let ordered := selected.insertionSort fun first second =>
    toLex (first.recordingStartedAt, first.filename) ≤
      toLex (second.recordingStartedAt, second.filename)
  ordered.map db.indexedProgram

/-- `find_indexed_program`. -/
def findIndexedProgram (db : SearchDb) (stream recordingStartedAt : String) :
    Option IndexedProgram :=
  (db.groupProgram stream recordingStartedAt).map db.indexedProgram

end SearchDb

/-- `ArchiveQueryService::require_ready`. -/
def requireReady (searchDbReady : Bool) : Except QueryServiceError Unit :=
  if searchDbReady then .ok () else .error (.unavailable "search database is not ready")

/-- `ArchiveQueryService::resolve_program_path`; `search` is the database that the reader
connection shows, when there is one. -/
def resolveProgramPath (crates : Crates) (dates : DateParser)
    (symlinkMetadata : String → Except IoError Entry) (dataDir : String) (searchDbReady : Bool)
    (search : Option SearchDb) (stream recordingStartedAt : String) :
    Except QueryServiceError String := do
  requireReady searchDbReady
  (validateStreamComponent crates.sanitizeFilename stream).mapError .ofIoError
  (validateRecordingStartedAt crates.chrono recordingStartedAt).mapError .ofIoError
  match search with
  | none => throw .internal
  | some db =>
      match db.findIndexedProgram stream recordingStartedAt with
      | none => throw (.notFound "program not found")
      | some program =>
          let path ← (resolveArchiveFilePath crates.sanitizeFilename dates symlinkMetadata dataDir
            program.stream program.month program.filename).mapError .ofIoError
          match path with
          | none => throw (.notFound "program not found")
          | some path => pure path

section Indexed

variable {crates : Crates} {archiveRoot path : String} {file : FileIdentity} {db : SearchDb}

/-- A scan that reads a present EIT knows the program of its file. -/
theorem isSome_programId_foldl (lines : List (List UInt8)) (state : ScanState)
    (known : state.programId.isSome = true ∨
      ∃ line ∈ lines, ∃ eit, lineRecord crates.serde line = .eit eit) :
    (lines.foldl (ingestLine crates file) state).programId.isSome = true := by
  induction lines generalizing state with
  | nil => simpa using known
  | cons line more ih =>
      apply ih
      rw [ingestLine_eq]
      rcases known with known | ⟨other, member, eit, header⟩
      · left
        cases lineRecord crates.serde line with
        | skipped => exact known
        | eit eit => rfl
        | caption caption =>
            cases found : state.programId with
            | none => rw [found] at known; cases known
            | some id => rfl
      · rcases List.mem_cons.mp member with rfl | later
        · left
          rw [header]
          rfl
        · exact .inr ⟨other, later, eit, header⟩

/-- A new file with a present EIT that no program of its group beats becomes that program. -/
theorem ingestFile_takes_program (identified : identify crates archiveRoot path = some file)
    (wellFormed : WellFormed crates archiveRoot db) (fresh : db.indexedFile path = none)
    (best : ∀ program, db.groupProgram file.stream file.recordingStartedAt = some program →
      program.path ≤ path)
    (metadata : ArchiveFileMetadata) {content line : List UInt8} {eit : EitPresent}
    (member : line ∈ Framing.frames newline content)
    (header : lineRecord crates.serde line = .eit eit) :
    ∃ after, ingestFile crates archiveRoot db path ⟨some metadata, some content⟩ = .ok after ∧
      ∃ program ∈ after.programs, program.path = path := by
  obtain ⟨after, ran, _⟩ := ingestFile_of_readable identified db metadata content
  refine ⟨after, ran, ?_⟩
  have own := path_of_identify identified
  subst own
  have formed := wellFormed.ingestFile ran
  have known : ((Framing.frames newline content).foldl (ingestLine crates file)
      ⟨db, none, 0, 0⟩).programId.isSome = true :=
    isSome_programId_foldl (Framing.frames newline content) ⟨db, none, 0, 0⟩
      (.inr ⟨line, member, eit, header⟩)
  cases ingestFile_cases ran with
  | unidentified skipped =>
      rw [skipped] at identified
      cases identified
  | sticky row found _ => rw [fresh] at found; cases found
  | current row metadata _ found _ _ => rw [fresh] at found; cases found
  | lost same winner row again _ group beaten _ _ _ =>
      rw [identified] at again
      cases again
      exact absurd (best winner group) (not_le_of_gt beaten)
  | shrunk row metadata lastError _ found _ _ => rw [fresh] at found; cases found
  | scanned same metadata' content' programId startOffset lineNo again own stat read starts =>
      rw [identified] at again
      cases again
      cases stat
      cases read
      cases starts with
      | resume row found _ _ => rw [fresh] at found; cases found
      | fresh _ _ =>
          obtain ⟨id, found⟩ := Option.isSome_iff_exists.mp known
          have row := indexedFile_upsertIndexedFile
            ((Framing.frames newline content).foldl (ingestLine crates file)
              ⟨db, none, 0, 0⟩).db file.path
            ((Framing.frames newline content).foldl (ingestLine crates file)
              ⟨db, none, 0, 0⟩).programId metadata.sizeBytes metadata.mtime
            ((Framing.frames newline content).foldl (ingestLine crates file)
              ⟨db, none, 0, 0⟩).pos
            ((Framing.frames newline content).foldl (ingestLine crates file)
              ⟨db, none, 0, 0⟩).lineNo file.path
          rw [if_pos rfl] at row
          obtain ⟨program, present, _, path⟩ := formed.linked.points _ _ id row found
          exact ⟨program, present, path⟩

end Indexed

theorem toList_formatMonth_eq_take {now : NaiveDateTime} (years : now.HasFourDigitYear) :
    now.formatMonth.toList = now.formatStartedAt.toList.take 7 := by
  have size : now.monthText.length = 7 := by
    rw [NaiveDateTime.monthText_of_fourDigitYear years]
    rfl
  simp only [NaiveDateTime.formatMonth, NaiveDateTime.formatStartedAt, String.toList_ofList,
    NaiveDateTime.startedAtText, List.append_assoc, ← size, List.take_left]

/-- What the readers make of the path of a recorded file. -/
structure AcceptedByReaders (crates : Crates) (dates : DateParser) (dataDir stream : String)
    (program : Program) (now : NaiveDateTime) (suffix : ℕ) : Prop where
  /-- `stream_month_filename` gives back the parts. -/
  parts : streamMonthFilename (archiveRoot dataDir)
      (archivePath crates dataDir stream program now suffix) =
    some (stream, now.formatMonth, archiveFilename crates program now suffix)
  /-- `parse_recording_started_at` gives back the second, in the month of the directory. -/
  recordingStartedAt : parseRecordingStartedAt crates.chrono
      (archiveFilename crates program now suffix) = some now.formatStartedAt ∧
    crates.chrono.parseStartedAt now.formatStartedAt = some now.truncated ∧
      now.formatMonth.toList = now.formatStartedAt.toList.take 7
  streamAccepted : validateStreamComponent crates.sanitizeFilename stream = .ok ()
  monthAccepted : validateMonthComponent dates now.formatMonth = .ok ()
  startedAtAccepted : validateRecordingStartedAt crates.chrono now.formatStartedAt = .ok ()
  filenameAccepted : validateFilenameComponent crates.sanitizeFilename
    (archiveFilename crates program now suffix) = .ok ()
  /-- The startup scan attempts the file. -/
  scanned : extension (archivePath crates dataDir stream program now suffix) = some "jsonl"
  /-- A transaction that can stat and read the file indexes it. -/
  indexed : ∀ (db : SearchDb) (metadata : ArchiveFileMetadata) (content : List UInt8),
    ∃ after, ingestFile crates (archiveRoot dataDir) db
        (archivePath crates dataDir stream program now suffix) ⟨some metadata, some content⟩ =
          .ok after ∧
      (after.indexedFile (archivePath crates dataDir stream program now suffix)).isSome = true
  /-- The file takes the program of its group when it has a present EIT and no greater rival. -/
  wins : ∀ (db : SearchDb) (metadata : ArchiveFileMetadata) (content line : List UInt8)
    (eit : EitPresent), IndexReachable crates (archiveRoot dataDir) db →
    db.indexedFile (archivePath crates dataDir stream program now suffix) = none →
    (∀ rival, db.groupProgram stream now.formatStartedAt = some rival →
      rival.path ≤ archivePath crates dataDir stream program now suffix) →
    line ∈ Framing.frames newline content → lineRecord crates.serde line = .eit eit →
    ∃ after, ingestFile crates (archiveRoot dataDir) db
        (archivePath crates dataDir stream program now suffix) ⟨some metadata, some content⟩ =
          .ok after ∧
      ∃ row ∈ after.programs, row.path = archivePath crates dataDir stream program now suffix
  /-- The collision winner is resolved to its path. -/
  resolved : ∀ (db : SearchDb) (row : ProgramRow) (content : List UInt8)
    (symlinkMetadata : String → Except IoError Entry),
    IndexReachable crates (archiveRoot dataDir) db → row ∈ db.programs →
    row.path = archivePath crates dataDir stream program now suffix →
    symlinkMetadata row.path = .ok (.file content) →
    resolveProgramPath crates dates symlinkMetadata dataDir true (some db) stream
      now.formatStartedAt = .ok row.path

/-- Every name that the recorder produces is accepted by every reader. -/
theorem recorded_names_are_accepted {crates : Crates}
    (keeps : crates.sanitizeFilename.KeepsNames) (dates : DateParser) (dataDir : String)
    {stream : String} (valid : ConfigValid crates.sanitizeFilename stream) (program : Program)
    {now : NaiveDateTime} (years : now.HasFourDigitYear) {suffix : ℕ} (small : suffix < 2 ^ 32) :
    AcceptedByReaders crates dates dataDir stream program now suffix := by
  have identified := identify_archivePath crates dataDir valid program years suffix
  refine ⟨?_, ⟨?_, ?_, ?_⟩, ?_, ?_, ?_, ?_, ?_, ?_, ?_, ?_⟩
  · rw [streamMonthFilename_archivePath, valid.safeComponent_eq]
  · exact parseRecordingStartedAt_archiveFilename crates program years suffix
  · exact crates.chrono.parseStartedAt_format now years
  · exact toList_formatMonth_eq_take years
  · exact validatePathComponent_of_valid valid "stream"
  · exact validateMonthComponent_formatMonth dates years
  · exact validateRecordingStartedAt_formatStartedAt crates.chrono years
  · exact validateFilenameComponent_archiveFilename keeps years small
  · exact extension_archivePath crates dataDir stream program now suffix
  · exact ingestFile_of_readable identified
  · intro db metadata content line eit reachable fresh best member header
    exact ingestFile_takes_program identified reachable.wellFormed fresh best metadata member
      header
  · intro db row content symlinkMetadata reachable member own present
    have linked := reachable.wellFormed.linked.identified row member
    rw [own, identified, Option.some.injEq] at linked
    have groups (file : FileIdentity) :
        db.groupProgram file.stream file.recordingStartedAt = some row ↔
          row ∈ db.programs ∧ row.group = file.group :=
      mem_groupProgram reachable.wellFormed.tables
    have found : db.groupProgram stream now.formatStartedAt = some row :=
      (groups ⟨stream, now.formatMonth, archiveFilename crates program now suffix,
        archivePath crates dataDir stream program now suffix, now.formatStartedAt⟩).mpr
          ⟨member, congrArg FileIdentity.group linked.symm⟩
    have listed : (db.findIndexedProgram stream now.formatStartedAt).map (fun listed =>
        (listed.stream, listed.month, listed.filename)) =
          some (stream, now.formatMonth, archiveFilename crates program now suffix) := by
      rw [SearchDb.findIndexedProgram, found, Option.map_some, Option.map_some,
        SearchDb.indexedProgram, ← linked]
    obtain ⟨indexed, resolved, same⟩ := Option.map_eq_some_iff.mp listed
    obtain ⟨streamEq, monthEq, filenameEq⟩ :
        indexed.stream = stream ∧ indexed.month = now.formatMonth ∧
          indexed.filename = archiveFilename crates program now suffix := by
      simpa using same
    rw [own] at present ⊢
    have path : resolveArchiveFilePath crates.sanitizeFilename dates symlinkMetadata dataDir stream
        now.formatMonth (archiveFilename crates program now suffix) =
          .ok (some (archivePath crates dataDir stream program now suffix)) :=
      resolveArchiveFilePath_archivePath keeps valid years small present
    unfold resolveProgramPath
    rw [validateStreamComponent, validatePathComponent_of_valid valid,
      validateRecordingStartedAt_formatStartedAt crates.chrono years]
    simp only [resolved, streamEq, monthEq, filenameEq, path]
    rfl

namespace Sample

theorem recorded_names_are_accepted_sample :
    AcceptedByReaders crates .padded "data" "nhk" ⟨⟨none, none, none, none, none⟩, "a/b: c"⟩
      (clock 1) 3 :=
  recorded_names_are_accepted (keepsNames_ascii _ _) .padded "data"
    ⟨by decide, by decide +kernel⟩ _ (by decide) (by decide)

end Sample

end AribcapDb
