import AribcapDb.Foundation.Transition
import AribcapDb.Search.Tables

/-! # The representation invariant of the search database

Programs, their captions and genres, and the rows of `indexed_files` refer to each other
(`Linked`). While a file is scanned the invariant holds of the row that a commit would write
(`Scanning`), and every committed transaction and every cleanup leave a well-formed database
(`WellFormed.ingestFile`, `WellFormed.cleanup`). -/

namespace AribcapDb

/-- The rows of all tables fit together, with `rows` as the content of `indexed_files`. -/
structure Linked (crates : Crates) (archiveRoot : String) (db : SearchDb)
    (rows : String → Option IndexedFileRow) : Prop where
  identified : ProgramsIdentified crates archiveRoot db
  owner : ∀ program ∈ db.programs, ∃ row, rows program.path = some row ∧
    row.programId = some program.id
  points : ∀ path row id, rows path = some row → row.programId = some id →
    ∃ program ∈ db.programs, program.id = id ∧ program.path = path
  duplicates : ∀ path row, rows path = some row → row.status = .duplicate →
    row.programId = none
  genreOwner : ∀ genre ∈ db.programGenres, ∃ program ∈ db.programs,
    program.id = genre.programId
  captionOwner : ∀ caption ∈ db.captionLines, ∃ program ∈ db.programs,
    program.id = caption.programId ∧ ∀ row, rows program.path = some row →
      caption.lineNo ≤ row.indexedLines ∧ caption.byteOffset < row.indexedOffset

structure WellFormed (crates : Crates) (archiveRoot : String) (db : SearchDb) : Prop where
  tables : TablesSound crates.unicode db
  files : Table.Unique IndexedFileRow.path db.indexedFiles
  linked : Linked crates archiveRoot db db.indexedFile

/-- The row that a commit would write for the file being scanned, up to its size and time. -/
def ScanState.row (state : ScanState) (file : FileIdentity) : IndexedFileRow :=
  ⟨file.path, state.programId, 0, 0, state.pos, state.lineNo, .ok, none⟩

/-- The invariant inside a transaction that scans a file. -/
structure Scanning (crates : Crates) (archiveRoot : String) (file : FileIdentity)
    (state : ScanState) : Prop where
  own : identify crates archiveRoot file.path = some file
  tables : TablesSound crates.unicode state.db
  files : Table.Unique IndexedFileRow.path state.db.indexedFiles
  linked : Linked crates archiveRoot state.db
    (Function.update state.db.indexedFile file.path (some (state.row file)))

variable {crates : Crates} {archiveRoot : String}

namespace Linked

variable {db : SearchDb} {rows : String → Option IndexedFileRow}

/-- Programs of one path are one program. -/
theorem program_eq (linked : Linked crates archiveRoot db rows)
    (sound : TablesSound crates.unicode db) {first second : ProgramRow}
    (here : first ∈ db.programs) (there : second ∈ db.programs)
    (path : first.path = second.path) : first = second := by
  have left := linked.identified first here
  rw [path, linked.identified second there] at left
  apply sound.programGroups.eq_of_key here there
  rw [Option.some.inj left]

/-- The row of one path may be replaced by one of the same program with as much indexed. -/
theorem replaceRow (linked : Linked crates archiveRoot db rows) (path : String)
    (new : IndexedFileRow) (duplicate : new.status = .duplicate → new.programId = none)
    (same : ∀ old, rows path = some old → old.programId = new.programId ∧
      (new.programId ≠ none →
        old.indexedLines ≤ new.indexedLines ∧ old.indexedOffset ≤ new.indexedOffset))
    (absent : rows path = none → new.programId = none) :
    Linked crates archiveRoot db (Function.update rows path (some new)) where
  identified := linked.identified
  owner program member := by
    obtain ⟨row, found, id⟩ := linked.owner program member
    by_cases here : program.path = path
    · subst here
      exact ⟨new, Function.update_self .., (same row found).1 ▸ id⟩
    · exact ⟨row, by rwa [Function.update_of_ne here], id⟩
  points other row id found known := by
    by_cases here : other = path
    · subst here
      rw [Function.update_self, Option.some.injEq] at found
      subst found
      cases old : rows other with
      | none =>
          rw [absent old] at known
          cases known
      | some first => exact linked.points other first id old ((same first old).1 ▸ known)
    · rw [Function.update_of_ne here] at found
      exact linked.points other row id found known
  duplicates other row found status := by
    by_cases here : other = path
    · subst here
      rw [Function.update_self, Option.some.injEq] at found
      subst found
      exact duplicate status
    · rw [Function.update_of_ne here] at found
      exact linked.duplicates other row found status
  genreOwner := linked.genreOwner
  captionOwner caption member := by
    obtain ⟨program, present, id, bounds⟩ := linked.captionOwner caption member
    refine ⟨program, present, id, fun row found => ?_⟩
    by_cases here : program.path = path
    · subst here
      rw [Function.update_self, Option.some.injEq] at found
      subst found
      obtain ⟨old, before, known⟩ := linked.owner program present
      obtain ⟨equal, more⟩ := same old before
      have grown := more (by rw [← equal, known]; exact Option.some_ne_none _)
      have bounded := bounds old before
      exact ⟨bounded.1.trans grown.1, bounded.2.trans_le grown.2⟩
    · rw [Function.update_of_ne here] at found
      exact bounds row found

/-- A caption of the part that is indexed may be added. -/
theorem insertCaption (linked : Linked crates archiveRoot db rows) (row : CaptionRow)
    {program : ProgramRow} (member : program ∈ db.programs) (id : program.id = row.programId)
    (bounds : ∀ file, rows program.path = some file →
      row.lineNo ≤ file.indexedLines ∧ row.byteOffset < file.indexedOffset) :
    Linked crates archiveRoot (db.insertCaption row) rows :=
  { linked with
    captionOwner := fun caption present => by
      rcases List.mem_append.mp present with old | new
      · exact linked.captionOwner caption old
      · rw [List.mem_singleton.mp new]
        exact ⟨program, member, id, bounds⟩ }

/-- `upsert_program` gives the group's program to the file being scanned. -/
theorem upsertProgram {file : FileIdentity} {eit : EitPresent} {id : ℕ} {after : SearchDb}
    {row : IndexedFileRow}
    (linked : Linked crates archiveRoot db
      (Function.update db.indexedFile file.path (some row)))
    (sound : TablesSound crates.unicode db)
    (own : identify crates archiveRoot file.path = some file)
    (upserted : Upserted crates.unicode db file eit id after)
    (active : row.status ≠ .duplicate) :
    Linked crates archiveRoot after
      (Function.update after.indexedFile file.path (some { row with programId := some id })) := by
  have group_of_path : ∀ program ∈ db.programs, program.path = file.path →
      program.group = file.group := by
    intro program member path
    have known := linked.identified program member
    rw [path, own] at known
    rw [Option.some.inj known]
  -- Programs of other groups keep their rows: neither the file's nor its rival's.
  have other_row : ∀ program ∈ db.programs, program.group ≠ file.group →
      program.path ≠ file.path ∧
        after.indexedFile program.path = db.indexedFile program.path := by
    intro program member other
    refine ⟨fun path => other (group_of_path program member path), ?_⟩
    rw [upserted.indexed, if_neg]
    rintro ⟨rival, found, path⟩
    obtain ⟨present, group, _⟩ := (mem_rival sound).mp found
    exact other (linked.program_eq sound present member path ▸ group)
  constructor
  · intro program member
    rcases (upserted.program program).mp member with rfl | ⟨present, _⟩
    · exact own
    · exact linked.identified program present
  · intro program member
    rcases (upserted.program program).mp member with rfl | ⟨present, other⟩
    · exact ⟨_, Function.update_self .., rfl⟩
    · obtain ⟨old, found, known⟩ := linked.owner program present
      obtain ⟨path, same⟩ := other_row program present other
      rw [Function.update_of_ne path] at found
      exact ⟨old, by rw [Function.update_of_ne path, same, found], known⟩
  · intro path pointer pid found known
    by_cases here : path = file.path
    · subst here
      rw [Function.update_self, Option.some.injEq] at found
      subst found
      exact ⟨_, (upserted.program _).mpr (.inl rfl), Option.some.inj known, rfl⟩
    · rw [Function.update_of_ne here, upserted.indexed] at found
      split at found
      · obtain ⟨old, _, rfl⟩ := Option.map_eq_some_iff.mp found
        cases known
      · next free =>
          obtain ⟨program, member, same, path⟩ := linked.points path pointer pid
            (by rwa [Function.update_of_ne here]) known
          refine ⟨program, (upserted.program _).mpr (.inr ⟨member, fun group => ?_⟩), same, path⟩
          exact free ⟨program, (mem_rival sound).mpr ⟨member, group, path ▸ here⟩, path⟩
  · intro path pointer found status
    by_cases here : path = file.path
    · subst here
      rw [Function.update_self, Option.some.injEq] at found
      subst found
      exact absurd status active
    · rw [Function.update_of_ne here, upserted.indexed] at found
      split at found
      · obtain ⟨old, _, rfl⟩ := Option.map_eq_some_iff.mp found
        rfl
      · exact linked.duplicates path pointer (by rwa [Function.update_of_ne here]) status
  · intro genre member
    rcases (upserted.genre genre).mp member with ⟨same, _⟩ | ⟨present, other⟩
    · exact ⟨_, (upserted.program _).mpr (.inl rfl), same.symm⟩
    · obtain ⟨program, there, same⟩ := linked.genreOwner genre present
      refine ⟨program, (upserted.program _).mpr (.inr ⟨there, fun group => other ?_⟩), same⟩
      rw [← same, (upserted.id_iff program there).mpr group]
  · intro caption member
    obtain ⟨present, free⟩ := (upserted.caption caption).mp member
    obtain ⟨program, there, same, bounds⟩ := linked.captionOwner caption present
    by_cases group : program.group = file.group
    · have path : program.path = file.path := by
        by_contra other
        exact free program ((mem_rival sound).mpr ⟨there, group, other⟩) same.symm
      refine ⟨_, (upserted.program _).mpr (.inl rfl),
        ((upserted.id_iff program there).mpr group).symm.trans same, fun new found => ?_⟩
      rw [Function.update_self, Option.some.injEq] at found
      subst found
      exact bounds row (by rw [path, Function.update_self])
    · obtain ⟨path, kept⟩ := other_row program there group
      refine ⟨program, (upserted.program _).mpr (.inr ⟨there, group⟩), same, fun new found => ?_⟩
      rw [Function.update_of_ne path, kept] at found
      exact bounds new (by rwa [Function.update_of_ne path])

end Linked

namespace Scanning

variable {file : FileIdentity} {state : ScanState}

/-- Reading on moves the position and the line number of the row forward. -/
theorem advance (scanning : Scanning crates archiveRoot file state) (pos lineNo : ℕ)
    (further : state.pos ≤ pos) (later : state.lineNo ≤ lineNo) :
    Scanning crates archiveRoot file { state with pos, lineNo } where
  own := scanning.own
  tables := scanning.tables
  files := scanning.files
  linked := by
    have replaced := scanning.linked.replaceRow file.path
      (ScanState.row { state with pos, lineNo } file) (by rintro ⟨⟩)
      (fun old found => by
        rw [Function.update_self, Option.some.injEq] at found
        subst found
        exact ⟨rfl, fun _ => ⟨later, further⟩⟩)
      (fun absent => by
        rw [Function.update_self] at absent
        cases absent)
    rwa [Function.update_idem] at replaced

/-- The program a scan knows is the program of its file. -/
theorem exists_program (scanning : Scanning crates archiveRoot file state) {id : ℕ}
    (known : state.programId = some id) :
    ∃ program ∈ state.db.programs, program.id = id ∧ program.path = file.path :=
  scanning.linked.points file.path _ id (Function.update_self ..) known

/-- The captions of the program a scan knows are those of lines it has read. -/
theorem caption_bounds (scanning : Scanning crates archiveRoot file state) {id : ℕ}
    (known : state.programId = some id) {caption : CaptionRow}
    (member : caption ∈ state.db.captionLines) (own : caption.programId = id) :
    caption.lineNo ≤ state.lineNo ∧ caption.byteOffset < state.pos := by
  obtain ⟨program, present, same, path⟩ := scanning.exists_program known
  obtain ⟨other, there, equal, bounds⟩ := scanning.linked.captionOwner caption member
  have one : other = program := scanning.tables.programIds.eq_of_key there present
    (equal.trans (own.trans same.symm))
  subst one
  exact bounds (state.row file) (by rw [path, Function.update_self])

/-- A caption line that is read for the first time has a new key. -/
theorem fresh_key (scanning : Scanning crates archiveRoot file state) {id : ℕ}
    (known : state.programId = some id) :
    ∀ row ∈ state.db.captionLines, row.key ≠ (id, state.lineNo + 1) := by
  intro row member same
  obtain ⟨program, line⟩ := Prod.ext_iff.mp same
  have bounds := (scanning.caption_bounds known member program).1
  have equal : row.lineNo = state.lineNo + 1 := line
  omega

/-- Every line keeps the invariant of the scan. -/
theorem step (scanning : Scanning crates archiveRoot file state) (line : List UInt8) :
    Scanning crates archiveRoot file (ingestLine crates file state line) := by
  have advanced := scanning.advance (state.pos + (line.length + 1)) (state.lineNo + 1)
    (by omega) (by omega)
  rw [ingestLine_eq]
  cases record : lineRecord crates.serde line with
  | skipped => exact advanced
  | eit eit =>
      obtain ⟨sound, upserted⟩ :=
        upsertProgram_spec scanning.tables scanning.linked.identified scanning.own eit
      have linked := advanced.linked.upsertProgram scanning.tables scanning.own upserted
        (by rintro ⟨⟩)
      exact ⟨scanning.own, sound, upsertProgram_files scanning.files file eit,
        linked⟩
  | caption caption =>
      cases known : state.programId with
      | none => simpa only [known] using advanced
      | some id =>
          have fresh := scanning.fresh_key known
          obtain ⟨program, member, same, path⟩ := scanning.exists_program known
          have inserted := insertCaptionLine_of_fresh crates.unicode fresh state.pos caption
          simp only [known] at advanced ⊢
          refine ⟨scanning.own, scanning.tables.insertCaptionLine fresh _ _, ?_, ?_⟩
          · rw [inserted]
            exact scanning.files
          · have linked := advanced.linked.insertCaption
              { id := Table.nextRowid (state.db.captionLines.map CaptionRow.id)
                programId := id, lineNo := state.lineNo + 1, byteOffset := state.pos, caption
                normalizedText := searchIndexText crates.unicode caption.text }
              member same (fun row found => by
                rw [path, Function.update_self, Option.some.injEq] at found
                subst found
                exact ⟨le_refl _, by simp only [ScanState.row]; omega⟩)
            rw [inserted]
            exact linked

/-- What every line of a scan preserves, the scan preserves. -/
theorem preserved {motive : ScanState → Prop} (scanning : Scanning crates archiveRoot file state)
    (start : motive state)
    (step : ∀ {state}, Scanning crates archiveRoot file state → motive state →
      ∀ line, motive (ingestLine crates file state line))
    (lines : List (List UInt8)) : motive (lines.foldl (ingestLine crates file) state) := by
  induction lines generalizing state with
  | nil => exact start
  | cons line more ih =>
      rw [List.foldl_cons]
      exact ih (scanning.step line) (step scanning start line)

theorem run (scanning : Scanning crates archiveRoot file state) (lines : List (List UInt8)) :
    Scanning crates archiveRoot file (lines.foldl (ingestLine crates file) state) :=
  scanning.preserved scanning (fun scanning _ line => scanning.step line) lines

end Scanning

/-- Where the scan of a file starts: where its row ended, or at the beginning of a new path that
no program of its group beats. -/
inductive StartsAt (db : SearchDb) (file : FileIdentity) (metadata : ArchiveFileMetadata) :
    Option ℕ → ℕ → ℕ → Prop where
  | resume (row : IndexedFileRow) : db.indexedFile file.path = some row → row.status = .ok →
      row.indexedOffset < metadata.sizeBytes →
      StartsAt db file metadata row.programId row.indexedOffset row.indexedLines
  | fresh : db.indexedFile file.path = none →
      (∀ program, db.groupProgram file.stream file.recordingStartedAt = some program →
        program.path ≤ file.path) →
      StartsAt db file metadata none 0 0

/-- The database that a scan of the file's content from an offset commits. -/
def commitScan (crates : Crates) (db : SearchDb) (file : FileIdentity)
    (metadata : ArchiveFileMetadata) (content : List UInt8) (programId : Option ℕ)
    (startOffset lineNo : ℕ) : SearchDb :=
  let state := (Framing.frames newline (content.drop startOffset)).foldl
    (ingestLine crates file) ⟨db, programId, startOffset, lineNo⟩
  state.db.upsertIndexedFile file.path state.programId metadata.sizeBytes metadata.mtime
    state.pos state.lineNo

/-- What a successful `ingest_file` can do. -/
inductive Ingested (crates : Crates) (archiveRoot : String) (db : SearchDb) (path : String)
    (access : FileAccess) : SearchDb → Prop where
  | unidentified : identify crates archiveRoot path = none →
      Ingested crates archiveRoot db path access db
  | sticky (row : IndexedFileRow) : db.indexedFile path = some row → row.status ≠ .ok →
      Ingested crates archiveRoot db path access db
  | current (row : IndexedFileRow) (metadata : ArchiveFileMetadata) :
      access.metadata = some metadata → db.indexedFile path = some row → row.status = .ok →
      metadata.sizeBytes = row.indexedOffset →
      Ingested crates archiveRoot db path access db
  | lost (file : FileIdentity) (winner : ProgramRow) (row : IndexedFileRow) :
      identify crates archiveRoot path = some file → db.indexedFile path = none →
      db.groupProgram file.stream file.recordingStartedAt = some winner → path < winner.path →
      row.path = path → row.programId = none → row.status = .duplicate →
      Ingested crates archiveRoot db path access (db.upsertIndexedFiles (fun _ => row) row)
  | shrunk (row : IndexedFileRow) (metadata : ArchiveFileMetadata) (lastError : String) :
      access.metadata = some metadata → db.indexedFile path = some row → row.status = .ok →
      metadata.sizeBytes < row.indexedOffset →
      Ingested crates archiveRoot db path access
        (db.markIndexingError path row.programId metadata.sizeBytes metadata.mtime lastError)
  | scanned (file : FileIdentity) (metadata : ArchiveFileMetadata) (content : List UInt8)
      (programId : Option ℕ) (startOffset lineNo : ℕ) :
      identify crates archiveRoot path = some file → file.path = path →
      access.metadata = some metadata → access.content = some content →
      StartsAt db file metadata programId startOffset lineNo →
      Ingested crates archiveRoot db path access
        (commitScan crates db file metadata content programId startOffset lineNo)

theorem path_of_identify {path : String} {file : FileIdentity}
    (identified : identify crates archiveRoot path = some file) : file.path = path := by
  simp only [identify, Option.bind_eq_bind, Option.bind_eq_some_iff] at identified
  obtain ⟨_, _, _, _, equal⟩ := identified
  rw [← Option.some.inj equal]

/-- A path that says nothing about a file is skipped. -/
theorem ingestFile_of_unidentified {db after : SearchDb} {path : String} {access : FileAccess}
    (skipped : identify crates archiveRoot path = none)
    (ran : ingestFile crates archiveRoot db path access = .ok after) : after = db := by
  simp only [ingestFile, skipped, Except.ok.injEq] at ran
  exact ran.symm

theorem ingestTail_ok {db after : SearchDb} {file : FileIdentity}
    {metadata : ArchiveFileMetadata} {content : Option (List UInt8)} {programId : Option ℕ}
    {startOffset lineNo : ℕ}
    (ran : ingestTail crates db file metadata content programId startOffset lineNo =
      .ok after) :
    ∃ bytes, content = some bytes ∧
      after = commitScan crates db file metadata bytes programId startOffset lineNo := by
  cases content with
  | none => cases ran
  | some bytes =>
      refine ⟨bytes, rfl, ?_⟩
      simp only [ingestTail, ingestPieces_pieces, Except.ok.injEq] at ran
      exact ran.symm

/-- A row inserted where there is none. -/
theorem upsertIndexedFiles_of_absent {db : SearchDb} {row : IndexedFileRow}
    (absent : db.indexedFile row.path = none)
    (change other : IndexedFileRow → IndexedFileRow) :
    db.upsertIndexedFiles change row = db.upsertIndexedFiles other row := by
  have fresh : ∀ old ∈ db.indexedFiles, decide (old.path = row.path) = false := by
    intro old member
    simpa using List.find?_eq_none.mp absent old member
  unfold SearchDb.upsertIndexedFiles
  rw [Table.upsert_of_fresh fresh, Table.upsert_of_fresh fresh]

theorem ingestFile_cases {db after : SearchDb} {path : String} {access : FileAccess}
    (ran : ingestFile crates archiveRoot db path access = .ok after) :
    Ingested crates archiveRoot db path access after := by
  unfold ingestFile at ran
  cases identified : identify crates archiveRoot path with
  | none =>
      rw [identified] at ran
      cases ran
      exact .unidentified identified
  | some file =>
      have own := path_of_identify identified
      subst own
      rw [identified] at ran
      cases stat : access.metadata with
      | none =>
          simp only [stat] at ran
          cases ran
      | some metadata =>
          simp only [stat] at ran
          cases found : db.indexedFile file.path with
          | some row =>
              simp only [found] at ran
              split at ran
              · next sticky =>
                  cases ran
                  refine .sticky row found ?_
                  rcases sticky with duplicate | error
                  · rw [duplicate]
                    simp
                  · rw [error]
                    simp
              · next usable =>
                  have ok : row.status = .ok := by
                    cases status : row.status <;> simp [status] at usable ⊢
                  split at ran
                  · next smaller =>
                      cases ran
                      exact .shrunk row metadata _ stat found ok smaller
                  · next larger =>
                      split at ran
                      · next equal =>
                          cases ran
                          exact .current row metadata stat found ok equal
                      · next different =>
                          obtain ⟨content, read, rfl⟩ := ingestTail_ok ran
                          exact .scanned file metadata content _ _ _ identified rfl stat read
                            (.resume row found ok (by omega))
          | none =>
              simp only [found] at ran
              rcases markRecordingStartedAtCollisionLoser_cases db file metadata.sizeBytes
                  metadata.mtime with ⟨proceeds, best⟩ | ⟨winner, _, group, beaten, marked⟩
              · rw [proceeds] at ran
                obtain ⟨content, read, rfl⟩ := ingestTail_ok ran
                exact .scanned file metadata content _ _ _ identified rfl stat read
                  (.fresh found best)
              · rw [marked] at ran
                cases ran
                rw [upsertIndexedFiles_of_absent found _ fun _ => _]
                exact .lost file winner _ identified found group beaten rfl rfl rfl

namespace WellFormed

variable {db after : SearchDb}

theorem migrated (crates : Crates) (archiveRoot : String) :
    WellFormed crates archiveRoot .migrated where
  tables := .migrated _
  files := .nil
  linked :=
    { identified := by simp [ProgramsIdentified, SearchDb.migrated]
      owner := by simp [SearchDb.migrated]
      points := by simp [SearchDb.indexedFile, SearchDb.migrated]
      duplicates := by simp [SearchDb.indexedFile, SearchDb.migrated]
      genreOwner := by simp [SearchDb.migrated]
      captionOwner := by simp [SearchDb.migrated] }

theorem upsertFiles (tables : TablesSound crates.unicode db)
    (files : Table.Unique IndexedFileRow.path db.indexedFiles)
    {change : IndexedFileRow → IndexedFileRow} {row : IndexedFileRow}
    (same : ∀ old, old.path = row.path → (change old).path = old.path)
    (linked : Linked crates archiveRoot db (Function.update db.indexedFile row.path
      (some ((db.indexedFile row.path).elim row change)))) :
    WellFormed crates archiveRoot (db.upsertIndexedFiles change row) where
  tables := tables.of_indexedFiles _
  files := files.upsert fun old _ equal => same old equal
  linked := by
    have rows : (db.upsertIndexedFiles change row).indexedFile =
        Function.update db.indexedFile row.path
          (some ((db.indexedFile row.path).elim row change)) := by
      funext path
      rw [SearchDb.indexedFile_upsertIndexedFiles _ _ _ same]
      by_cases here : path = row.path
      · rw [if_pos here, here, Function.update_self]
      · rw [if_neg here, Function.update_of_ne here]
    rw [rows]
    exact { linked with }

/-- A scan starts within the invariant. -/
theorem scanning (wellFormed : WellFormed crates archiveRoot db) {file : FileIdentity}
    (identified : identify crates archiveRoot file.path = some file)
    {metadata : ArchiveFileMetadata} {programId : Option ℕ} {startOffset lineNo : ℕ}
    (starts : StartsAt db file metadata programId startOffset lineNo) :
    Scanning crates archiveRoot file ⟨db, programId, startOffset, lineNo⟩ where
  own := identified
  tables := wellFormed.tables
  files := wellFormed.files
  linked := by
    refine wellFormed.linked.replaceRow file.path _ (by rintro ⟨⟩) (fun old found => ?_)
      fun absent => ?_
    · cases starts with
      | resume row present _ _ =>
          rw [present, Option.some.injEq] at found
          subst found
          exact ⟨rfl, fun _ => ⟨le_refl _, le_refl _⟩⟩
      | fresh none _ =>
          rw [none] at found
          cases found
    · cases starts with
      | resume row present _ _ =>
          rw [present] at absent
          cases absent
      | fresh _ _ => rfl

theorem commit {file : FileIdentity} {state : ScanState}
    (scanning : Scanning crates archiveRoot file state) (sizeBytes mtime : ℕ) :
    WellFormed crates archiveRoot (state.db.upsertIndexedFile file.path state.programId
      sizeBytes mtime state.pos state.lineNo) := by
  refine upsertFiles scanning.tables scanning.files (fun _ _ => rfl) ?_
  have replaced := scanning.linked.replaceRow file.path
    ⟨file.path, state.programId, sizeBytes, mtime, state.pos, state.lineNo, .ok, none⟩
    (by rintro ⟨⟩)
    (fun old found => by
      rw [Function.update_self, Option.some.injEq] at found
      subst found
      exact ⟨rfl, fun _ => ⟨le_refl _, le_refl _⟩⟩)
    (fun absent => by
      rw [Function.update_self] at absent
      cases absent)
  rw [Function.update_idem] at replaced
  cases found : state.db.indexedFile file.path with
  | none => exact replaced
  | some old =>
      have path := SearchDb.path_of_indexedFile found
      simp only [Option.elim_some, path]
      exact replaced

/-- Every committed `ingest_file` keeps the invariant. -/
theorem ingestFile (wellFormed : WellFormed crates archiveRoot db) {path : String}
    {access : FileAccess}
    (ran : ingestFile crates archiveRoot db path access = .ok after) :
    WellFormed crates archiveRoot after := by
  cases ingestFile_cases ran with
  | unidentified _ => exact wellFormed
  | sticky row _ _ => exact wellFormed
  | current row metadata _ _ _ _ => exact wellFormed
  | lost file winner row _ absent _ _ own none status =>
      subst own
      refine upsertFiles wellFormed.tables wellFormed.files (fun _ equal => equal.symm) ?_
      rw [absent]
      refine wellFormed.linked.replaceRow row.path row (fun _ => none) (fun old found => ?_)
        fun _ => none
      rw [absent] at found
      cases found
  | shrunk row metadata lastError _ found ok _ =>
      refine upsertFiles wellFormed.tables wellFormed.files (fun _ _ => rfl) ?_
      rw [found]
      refine wellFormed.linked.replaceRow path _ (by rintro ⟨⟩) (fun old present => ?_)
        fun absent => ?_
      · rw [found, Option.some.injEq] at present
        subst present
        exact ⟨rfl, fun _ => ⟨le_refl _, le_refl _⟩⟩
      · rw [found] at absent
        cases absent
  | scanned file metadata content programId startOffset lineNo identified own _ _ starts =>
      subst own
      exact commit ((wellFormed.scanning identified starts).run _) _ _

end WellFormed

/-- The database after `delete_indexed_path`, row by row. -/
structure PathDeleted (db : SearchDb) (path : String) (after : SearchDb) : Prop where
  program : ∀ row, row ∈ after.programs ↔ row ∈ db.programs ∧ row.path ≠ path
  indexed : ∀ other, after.indexedFile other =
    if other = path then none else db.indexedFile other
  genre : ∀ row, row ∈ after.programGenres ↔ row ∈ db.programGenres ∧
    ∀ program ∈ db.programs, program.path = path → program.id ≠ row.programId
  caption : ∀ row, row ∈ after.captionLines ↔ row ∈ db.captionLines ∧
    ∀ program ∈ db.programs, program.path = path → program.id ≠ row.programId

namespace WellFormed

variable {db : SearchDb}

/-- No other path refers to the program that is deleted with a path. -/
theorem pathDeleted (wellFormed : WellFormed crates archiveRoot db) (path : String) :
    PathDeleted db path (db.deleteIndexedPath path) where
  program row := by
    simp [SearchDb.deleteIndexedPath, SearchDb.deleteIndexedFiles,
      SearchDb.mem_programs_deletePrograms]
  indexed other := by
    unfold SearchDb.deleteIndexedPath
    rw [SearchDb.indexedFile_deleteIndexedFiles]
    split
    · rfl
    · next different =>
        rw [SearchDb.indexedFile_deletePrograms]
        cases found : db.indexedFile other with
        | none => rfl
        | some row =>
            cases known : row.programId with
            | none => simp [known]
            | some id =>
                obtain ⟨owner, member, same, own⟩ :=
                  wellFormed.linked.points other row id found known
                have kept : (db.programs.any fun program =>
                    program.path = path && program.id = id) = false := by
                  rw [List.any_eq_false]
                  intro program present
                  simp only [Bool.and_eq_true, decide_eq_true_eq, not_and]
                  intro gone equal
                  have one := wellFormed.tables.programIds.eq_of_key present member
                    (equal.trans same.symm)
                  exact different (by rw [← own, ← one, gone])
                simp [known, kept]
  genre row := by
    simp [SearchDb.deleteIndexedPath, SearchDb.deleteIndexedFiles,
      SearchDb.mem_programGenres_deletePrograms]
  caption row := by
    simp [SearchDb.deleteIndexedPath, SearchDb.deleteIndexedFiles,
      SearchDb.mem_captionLines_deletePrograms]

/-- Deleting the rows of a path keeps the invariant. -/
theorem deleteIndexedPath (wellFormed : WellFormed crates archiveRoot db) (path : String) :
    WellFormed crates archiveRoot (db.deleteIndexedPath path) := by
  have deleted := wellFormed.pathDeleted path
  have linked := wellFormed.linked
  refine ⟨(wellFormed.tables.deletePrograms _).of_indexedFiles _, ?_, ?_⟩
  · have released : Table.Unique IndexedFileRow.path
        (db.deletePrograms fun row => row.path = path).indexedFiles :=
      wellFormed.files.update fun _ _ _ => rfl
    exact released.filter _
  constructor
  · intro program member
    exact linked.identified program ((deleted.program program).mp member).1
  · intro program member
    obtain ⟨present, other⟩ := (deleted.program program).mp member
    rw [deleted.indexed, if_neg other]
    exact linked.owner program present
  · intro other row id found known
    rw [deleted.indexed] at found
    split at found
    · cases found
    · next different =>
        obtain ⟨program, member, same, own⟩ := linked.points other row id found known
        exact ⟨program, (deleted.program program).mpr ⟨member, own ▸ different⟩, same, own⟩
  · intro other row found status
    rw [deleted.indexed] at found
    split at found
    · cases found
    · exact linked.duplicates other row found status
  · intro genre member
    obtain ⟨present, free⟩ := (deleted.genre genre).mp member
    obtain ⟨program, there, same⟩ := linked.genreOwner genre present
    exact ⟨program, (deleted.program program).mpr
      ⟨there, fun gone => free program there gone same⟩, same⟩
  · intro caption member
    obtain ⟨present, free⟩ := (deleted.caption caption).mp member
    obtain ⟨program, there, same, bounds⟩ := linked.captionOwner caption present
    have kept : program.path ≠ path := fun gone => free program there gone same
    refine ⟨program, (deleted.program program).mpr ⟨there, kept⟩, same, fun row found => ?_⟩
    rw [deleted.indexed, if_neg kept] at found
    exact bounds row found

theorem deleteIndexedPaths (wellFormed : WellFormed crates archiveRoot db)
    (paths : List String) :
    WellFormed crates archiveRoot (paths.foldl SearchDb.deleteIndexedPath db) := by
  induction paths generalizing db with
  | nil => exact wellFormed
  | cons path more ih => exact ih (wellFormed.deleteIndexedPath path)

/-- Every cleanup keeps the invariant. -/
theorem cleanup (wellFormed : WellFormed crates archiveRoot db)
    (tryExists : String → Option Bool) :
    WellFormed crates archiveRoot (db.cleanupIndexForDeletedFiles tryExists).2 :=
  wellFormed.deleteIndexedPaths _

end WellFormed

/-- The committed transactions that change the database. -/
inductive IndexStep (crates : Crates) (archiveRoot : String) : SearchDb → SearchDb → Prop where
  | ingest {db after : SearchDb} (path : String) (access : FileAccess) :
      ingestFile crates archiveRoot db path access = .ok after →
      IndexStep crates archiveRoot db after
  | cleanup (db : SearchDb) (tryExists : String → Option Bool) :
      IndexStep crates archiveRoot db (db.cleanupIndexForDeletedFiles tryExists).2

/-- Reached from the migrated empty database. -/
def IndexReachable (crates : Crates) (archiveRoot : String) : SearchDb → Prop :=
  Transition.Reachable (· = SearchDb.migrated) (IndexStep crates archiveRoot)

theorem IndexReachable.wellFormed {db : SearchDb}
    (reachable : IndexReachable crates archiveRoot db) : WellFormed crates archiveRoot db := by
  refine Transition.Reachable.invariant ?_ ?_ reachable
  · rintro _ rfl
    exact .migrated crates archiveRoot
  · intro before after _ wellFormed stepped
    cases stepped with
    | ingest path access ran => exact wellFormed.ingestFile ran
    | cleanup tryExists => exact wellFormed.cleanup tryExists

/-- What every reader of the search database relies on. -/
structure RepresentationInvariant (unicode : Unicode) (db : SearchDb) : Prop where
  onePerPath : (db.programs.map fun program => program.path).Nodup
  onePerGroup : (db.programs.map fun program => program.group).Nodup
  programIndexed : ∀ program ∈ db.programs, ∃ row ∈ db.indexedFiles,
    row.path = program.path ∧ row.programId = some program.id
  indexedProgram : ∀ row ∈ db.indexedFiles, ∀ id, row.programId = some id →
    ∃ program ∈ db.programs, program.id = id ∧ program.path = row.path
  duplicates : ∀ row ∈ db.indexedFiles, row.status = .duplicate → row.programId = none
  captions : ∀ caption ∈ db.captionLines, ∃ program ∈ db.programs, ∃ row ∈ db.indexedFiles,
    program.id = caption.programId ∧ row.path = program.path ∧
      caption.lineNo ≤ row.indexedLines ∧ caption.byteOffset < row.indexedOffset
  genres : ∀ genre ∈ db.programGenres, ∃ program ∈ db.programs,
    program.id = genre.programId
  captionIndex : db.captionFts = ↑(db.captionLines.map fun caption =>
    (caption.id, searchIndexText unicode caption.caption.text))
  programIndex : db.programFts = ↑(db.programs.map fun program =>
    (program.id, searchIndexText unicode program.metadata.title,
      searchIndexText unicode program.metadata.description))

theorem WellFormed.representationInvariant {db : SearchDb}
    (wellFormed : WellFormed crates archiveRoot db) :
    RepresentationInvariant crates.unicode db := by
  have linked := wellFormed.linked
  have lookup : ∀ {path : String} {row : IndexedFileRow},
      db.indexedFile path = some row ↔ row ∈ db.indexedFiles ∧ row.path = path := by
    intro path row
    exact wellFormed.files.find?_eq_some_iff
  refine ⟨?_, wellFormed.tables.programGroups, ?_, ?_, ?_, ?_, linked.genreOwner, ?_, ?_⟩
  · have paths := wellFormed.tables.programIds
    refine List.Nodup.map_on (fun first here second there same => ?_) (List.Nodup.of_map _ paths)
    exact linked.program_eq wellFormed.tables here there same
  · intro program member
    obtain ⟨row, found, known⟩ := linked.owner program member
    exact ⟨row, (lookup.mp found).1, (lookup.mp found).2, known⟩
  · intro row member id known
    exact linked.points row.path row id (lookup.mpr ⟨member, rfl⟩) known
  · intro row member status
    exact linked.duplicates row.path row (lookup.mpr ⟨member, rfl⟩) status
  · intro caption member
    obtain ⟨program, present, same, bounds⟩ := linked.captionOwner caption member
    obtain ⟨row, found, _⟩ := linked.owner program present
    exact ⟨program, present, row, (lookup.mp found).1, same, (lookup.mp found).2,
      bounds row found⟩
  · have entries : db.captionLines.map captionEntry = db.captionLines.map fun caption =>
        (caption.id, searchIndexText crates.unicode caption.caption.text) :=
      List.map_congr_left fun caption member => by
        rw [captionEntry, wellFormed.tables.captionTexts caption member]
    rw [← entries]
    exact wellFormed.tables.captionIndex
  · have entries : db.programs.map programEntry = db.programs.map fun program =>
        (program.id, searchIndexText crates.unicode program.metadata.title,
          searchIndexText crates.unicode program.metadata.description) :=
      List.map_congr_left fun program member => by
        obtain ⟨title, description⟩ := wellFormed.tables.programTexts program member
        rw [programEntry, title, description]
    rw [← entries]
    exact wellFormed.tables.programIndex

/-- The representation invariant holds in every state reachable by ingest transactions and
cleanups. -/
theorem reachable_representationInvariant {db : SearchDb}
    (reachable : IndexReachable crates archiveRoot db) :
    RepresentationInvariant crates.unicode db :=
  reachable.wellFormed.representationInvariant

theorem reachable_representationInvariant_sample : ∃ db : SearchDb,
    (db.programs.map (·.path), db.captionLines.map CaptionRow.lineNo) =
        ([Sample.newsPath], [2]) ∧
      RepresentationInvariant Sample.crates.unicode db := by
  have evaluates : (ingestFile Sample.crates "data/archive" .migrated Sample.newsPath
      (Sample.access Sample.newsFile)).toOption.map (fun db =>
        (db.programs.map (·.path), db.captionLines.map CaptionRow.lineNo)) =
      some ([Sample.newsPath], [2]) := by decide +kernel
  obtain ⟨db, ran, rows⟩ := exists_ok_of_toOption_map evaluates
  have reachable : IndexReachable Sample.crates "data/archive" db :=
    .next (.initial rfl) (.ingest _ _ ran)
  exact ⟨db, rows, reachable_representationInvariant reachable⟩

end AribcapDb
