import AribcapDb.Search.Invariant

/-! # Scanning a file in parts

What the lines of a file amount to is a fold over them that needs no database (`fileIndex`). The
rows of a file show it at every position a scan may stop at (`Shows`), and a resumed scan goes
on from there, so that indexing a growing file pass by pass gives the rows of one pass over the
final content (`incremental_eq_oneShot`). -/

namespace AribcapDb

/-- A caption line of a file. -/
structure IndexedCaption where
  lineNo : ℕ
  byteOffset : ℕ
  caption : CaptionRecord
  deriving DecidableEq, Repr

/-- The last present EIT of a file and its captions since the first one. -/
structure ProgramIndex where
  eit : EitPresent
  captions : List IndexedCaption
  deriving DecidableEq, Repr

/-- What the lines of a file amount to. -/
structure FileIndex where
  program : Option ProgramIndex
  offset : ℕ
  lines : ℕ
  deriving DecidableEq, Repr

namespace FileIndex

def empty : FileIndex := ⟨none, 0, 0⟩

/-- What a line adds to the program of its file. -/
def readRecord (program : Option ProgramIndex) (lineNo byteOffset : ℕ) :
    LineRecord → Option ProgramIndex
  | .skipped => program
  | .eit eit => some ⟨eit, (program.map ProgramIndex.captions).getD []⟩
  | .caption caption => program.map fun known =>
      { known with captions := known.captions ++ [⟨lineNo, byteOffset, caption⟩] }

/-- Read one more line. -/
def read (serde : SerdeJson) (index : FileIndex) (line : List UInt8) : FileIndex :=
  { program := readRecord index.program (index.lines + 1) index.offset (lineRecord serde line)
    offset := index.offset + (line.length + 1)
    lines := index.lines + 1 }

end FileIndex

def fileIndex (serde : SerdeJson) (content : List UInt8) : FileIndex :=
  (Framing.frames newline content).foldl (FileIndex.read serde) .empty

theorem foldl_read_position (serde : SerdeJson) (index : FileIndex)
    (lines : List (List UInt8)) :
    (lines.foldl (FileIndex.read serde) index).offset =
        index.offset + (Framing.unframe newline lines).length ∧
      (lines.foldl (FileIndex.read serde) index).lines = index.lines + lines.length := by
  induction lines generalizing index with
  | nil => exact ⟨rfl, rfl⟩
  | cons line more ih =>
      obtain ⟨offset, count⟩ := ih (index.read serde line)
      rw [List.foldl_cons, offset, count, Framing.unframe_cons]
      simp only [FileIndex.read, List.length_append, List.length_cons]
      omega

/-- The position a scan stops at is the end of the terminated lines. -/
@[simp] theorem offset_fileIndex (serde : SerdeJson) (content : List UInt8) :
    (fileIndex serde content).offset = Framing.framedLength newline content := by
  have position := (foldl_read_position serde .empty (Framing.frames newline content)).1
  rw [fileIndex, position, FileIndex.empty, Nat.zero_add, Framing.framedLength]

@[simp] theorem lines_fileIndex (serde : SerdeJson) (content : List UInt8) :
    (fileIndex serde content).lines = (Framing.frames newline content).length := by
  have count := (foldl_read_position serde .empty (Framing.frames newline content)).2
  rw [fileIndex, count, FileIndex.empty, Nat.zero_add]

/-- The index of a grown file continues that of the shorter one. -/
theorem fileIndex_append (serde : SerdeJson) (content more : List UInt8) :
    fileIndex serde (content ++ more) =
      (Framing.frames newline
        ((content ++ more).drop (fileIndex serde content).offset)).foldl
          (FileIndex.read serde) (fileIndex serde content) := by
  rw [offset_fileIndex, Framing.drop_framedLength_append]
  exact Framing.foldl_frames_append newline _ _ _ _

/-- The rows of a program's captions, in the order they were inserted. -/
def SearchDb.captionsOf (db : SearchDb) (id : ℕ) : List CaptionRow :=
  db.captionLines.filter fun row => row.programId = id

def CaptionRow.indexed (row : CaptionRow) : IndexedCaption :=
  ⟨row.lineNo, row.byteOffset, row.caption⟩

/-- A program with its genres and captions is in the tables. -/
structure HasProgram (unicode : Unicode) (db : SearchDb) (file : FileIdentity) (id : ℕ)
    (index : ProgramIndex) : Prop where
  program : { file with id, metadata := programMetadata unicode index.eit } ∈ db.programs
  genres : ∀ genre, ⟨id, genre⟩ ∈ db.programGenres ↔ genre ∈ index.eit.genres
  captions : (db.captionsOf id).map CaptionRow.indexed = index.captions

/-- The tables and the known program id show what was read of a file. -/
def ShowsProgram (unicode : Unicode) (db : SearchDb) (file : FileIdentity)
    (programId : Option ℕ) : Option ProgramIndex → Prop
  | none => programId = none ∧ ∀ program ∈ db.programs, program.group ≠ file.group
  | some index => ∃ id, programId = some id ∧ HasProgram unicode db file id index

/-- A scan state shows what was read of its file. -/
structure ScanShows (unicode : Unicode) (file : FileIdentity) (state : ScanState)
    (index : FileIndex) : Prop where
  pos : state.pos = index.offset
  lineNo : state.lineNo = index.lines
  program : ShowsProgram unicode state.db file state.programId index.program

/-- The committed rows show what was read of a file. -/
structure Shows (unicode : Unicode) (db : SearchDb) (file : FileIdentity) (index : FileIndex) :
    Prop where
  row : ∃ row, db.indexedFile file.path = some row ∧ row.status = .ok ∧
    row.indexedOffset = index.offset ∧ row.indexedLines = index.lines ∧
      ShowsProgram unicode db file row.programId index.program

/-- Nothing is known of a file or of its group. -/
structure Unindexed (db : SearchDb) (file : FileIdentity) : Prop where
  row : db.indexedFile file.path = none
  group : ∀ program ∈ db.programs, program.group ≠ file.group

section Upsert

variable {unicode : Unicode} {db after : SearchDb} {file : FileIdentity} {eit : EitPresent}
  {id : ℕ}

theorem rival_of_group (sound : TablesSound unicode db)
    (own : ∀ program ∈ db.programs, program.group = file.group → program.path = file.path) :
    db.rival file = none := by
  cases found : db.rival file with
  | none => rfl
  | some rival =>
      obtain ⟨member, group, other⟩ := (mem_rival sound).mp found
      exact absurd (own rival member group) other

/-- Only a rival loses captions. -/
theorem captionLines_upsertProgram :
    (db.upsertProgram unicode file eit).2.captionLines =
      (db.withoutRival file).captionLines := by
  rw [upsertProgram_eq]
  dsimp only
  rw [(insertGenres_other _ _ eit.genres).2.1]
  unfold SearchDb.deleteGenres SearchDb.upsertProgramRow
  split
  · rfl
  · split <;> rfl

end Upsert

namespace ScanShows

variable {crates : Crates} {archiveRoot : String} {file : FileIdentity} {state : ScanState}
  {index : FileIndex}

/-- The programs of the group of a file that is shown are the file's own. -/
theorem own_group (shows' : ScanShows crates.unicode file state index)
    (sound : TablesSound crates.unicode state.db) :
    ∀ program ∈ state.db.programs, program.group = file.group →
      program.path = file.path := by
  intro program member group
  have known := shows'.program
  cases read : index.program with
  | none =>
      rw [read] at known
      exact absurd group (known.2 program member)
  | some content =>
      rw [read] at known
      obtain ⟨id, _, has⟩ := known
      rw [sound.programGroups.eq_of_key member has.program group]

/-- A present EIT gives the file its program, or new metadata to the one it has. -/
theorem eit (shows' : ScanShows crates.unicode file state index)
    (scanning : Scanning crates archiveRoot file state) (eit : EitPresent) :
    HasProgram crates.unicode (state.db.upsertProgram crates.unicode file eit).2 file
      (state.db.upsertProgram crates.unicode file eit).1
      ⟨eit, (index.program.map ProgramIndex.captions).getD []⟩ := by
  have alone := rival_of_group scanning.tables (shows'.own_group scanning.tables)
  have kept : (state.db.upsertProgram crates.unicode file eit).2.captionLines =
      state.db.captionLines := by
    rw [captionLines_upsertProgram, SearchDb.withoutRival, alone]
  have upserted :=
    (upsertProgram_spec scanning.tables scanning.linked.identified scanning.own eit).2
  generalize state.db.upsertProgram crates.unicode file eit = result at kept upserted ⊢
  refine ⟨(upserted.program _).mpr (.inl rfl), fun genre => ?_, ?_⟩
  · rw [upserted.genre]
    simp
  · have known := shows'.program
    unfold SearchDb.captionsOf
    rw [kept]
    cases read : index.program with
    | none =>
        rw [read] at known
        have unused : state.db.captionLines.filter (fun row => row.programId = result.1) = [] := by
          rw [List.filter_eq_nil_iff]
          intro caption member own
          obtain ⟨program, there, same, _⟩ := scanning.linked.captionOwner caption member
          have group := (upserted.id_iff program there).mp (same.trans (by simpa using own))
          exact known.2 program there group
        rw [unused]
        rfl
    | some content =>
        rw [read] at known
        obtain ⟨id, _, has⟩ := known
        have same : id = result.1 := (upserted.id_iff _ has.program).mpr rfl
        rw [← same]
        exact has.captions

/-- A caption is appended to those of the file's program. -/
theorem caption {unicode : Unicode} {db : SearchDb} {id lineNo : ℕ} {content : ProgramIndex}
    (has : HasProgram unicode db file id content)
    (fresh : ∀ row ∈ db.captionLines, row.key ≠ (id, lineNo)) (byteOffset : ℕ)
    (caption : CaptionRecord) :
    HasProgram unicode (db.insertCaptionLine unicode id lineNo byteOffset caption) file id
      { content with captions := content.captions ++ [⟨lineNo, byteOffset, caption⟩] } := by
  rw [insertCaptionLine_of_fresh unicode fresh]
  refine ⟨has.program, has.genres, ?_⟩
  have before := has.captions
  unfold SearchDb.captionsOf at before ⊢
  simp [SearchDb.insertCaption, before, CaptionRow.indexed]

/-- A scan goes on showing what it has read. -/
theorem step (shows' : ScanShows crates.unicode file state index)
    (scanning : Scanning crates archiveRoot file state) (line : List UInt8) :
    ScanShows crates.unicode file (ingestLine crates file state line)
      (index.read crates.serde line) := by
  have known := shows'.program
  rw [ingestLine_eq]
  cases record : lineRecord crates.serde line with
  | skipped =>
      refine ⟨?_, ?_, ?_⟩
      · simp only [FileIndex.read, shows'.pos]
      · simp only [FileIndex.read, shows'.lineNo]
      · simpa only [FileIndex.read, record, FileIndex.readRecord] using known
  | eit eit =>
      refine ⟨?_, ?_, ?_⟩
      · simp only [FileIndex.read, shows'.pos]
      · simp only [FileIndex.read, shows'.lineNo]
      · simp only [FileIndex.read, record, FileIndex.readRecord, ShowsProgram]
        exact ⟨_, rfl, shows'.eit scanning eit⟩
  | caption caption =>
      cases read : index.program with
      | none =>
          rw [read] at known
          simp only [known.1]
          refine ⟨?_, ?_, ?_⟩
          · simp only [FileIndex.read, shows'.pos]
          · simp only [FileIndex.read, shows'.lineNo]
          · simp only [FileIndex.read, record, FileIndex.readRecord, read, Option.map_none]
            exact ⟨rfl, known.2⟩
      | some content =>
          rw [read] at known
          obtain ⟨id, found, has⟩ := known
          have inserted := ScanShows.caption has (scanning.fresh_key found) state.pos caption
          simp only [found]
          refine ⟨?_, ?_, ?_⟩
          · simp only [FileIndex.read, shows'.pos]
          · simp only [FileIndex.read, shows'.lineNo]
          · simp only [FileIndex.read, record, FileIndex.readRecord, read, Option.map_some,
              ShowsProgram]
            refine ⟨id, rfl, ?_⟩
            rwa [← shows'.lineNo, ← shows'.pos]

theorem run (shows' : ScanShows crates.unicode file state index)
    (scanning : Scanning crates archiveRoot file state) (lines : List (List UInt8)) :
    ScanShows crates.unicode file (lines.foldl (ingestLine crates file) state)
      (lines.foldl (FileIndex.read crates.serde) index) := by
  induction lines generalizing state index with
  | nil => exact shows'
  | cons line more ih =>
      rw [List.foldl_cons, List.foldl_cons]
      exact ih (shows'.step scanning line) (scanning.step line)

/-- A commit shows what the scan has read. -/
theorem commit {unicode : Unicode} (shows' : ScanShows unicode file state index)
    (sizeBytes mtime : ℕ) :
    Shows unicode (state.db.upsertIndexedFile file.path state.programId sizeBytes mtime
      state.pos state.lineNo) file index := by
  refine ⟨⟨file.path, state.programId, sizeBytes, mtime, state.pos, state.lineNo, .ok, none⟩,
    ?_, rfl, shows'.pos, shows'.lineNo, ?_⟩
  · rw [indexedFile_upsertIndexedFile, if_pos rfl]
  · have known := shows'.program
    cases read : index.program with
    | none =>
        rw [read] at known
        exact known
    | some content =>
        rw [read] at known
        obtain ⟨id, found, has⟩ := known
        exact ⟨id, found, ⟨has.program, has.genres, has.captions⟩⟩

end ScanShows

section Ingest

variable {crates : Crates} {archiveRoot : String} {db : SearchDb} {file : FileIdentity}

/-- What `ingest_file` finds when it runs at a prefix of a file. -/
def prefixAccess (content : List UInt8) (mtime : ℕ) : FileAccess :=
  ⟨some ⟨content.length, mtime⟩, some content⟩

/-- A scan stores the size it was given. -/
theorem sizeBytes_commitScan (metadata : ArchiveFileMetadata) (content : List UInt8)
    (programId : Option ℕ) (startOffset lineNo : ℕ) :
    ∃ row, (commitScan crates db file metadata content programId startOffset lineNo).indexedFile
        file.path = some row ∧ row.sizeBytes = metadata.sizeBytes := by
  unfold commitScan
  simp only [indexedFile_upsertIndexedFile, ↓reduceIte]
  exact ⟨_, rfl, rfl⟩

/-- A file of which nothing is known is indexed as it is read, under the size from `stat`. -/
theorem Unindexed.ingestFile_stat (unindexed : Unindexed db file)
    (wellFormed : WellFormed crates archiveRoot db)
    (identified : identify crates archiveRoot file.path = some file) (content : List UInt8)
    (metadata : ArchiveFileMetadata) :
    ∃ after, AribcapDb.ingestFile crates archiveRoot db file.path ⟨some metadata, some content⟩ =
        .ok after ∧ Shows crates.unicode after file (fileIndex crates.serde content) ∧
      ∃ row, after.indexedFile file.path = some row ∧ row.sizeBytes = metadata.sizeBytes := by
  have absent : db.groupProgram file.stream file.recordingStartedAt = none := by
    cases found : db.groupProgram file.stream file.recordingStartedAt with
    | none => rfl
    | some program =>
        obtain ⟨member, group⟩ := (mem_groupProgram wellFormed.tables).mp found
        exact absurd group (unindexed.group program member)
  have starts : StartsAt db file metadata none 0 0 := .fresh unindexed.row (by simp [absent])
  have start : ScanShows crates.unicode file ⟨db, none, 0, 0⟩ .empty :=
    ⟨rfl, rfl, rfl, unindexed.group⟩
  refine ⟨commitScan crates db file metadata content none 0 0, ?_, ?_,
    sizeBytes_commitScan metadata content none 0 0⟩
  · simp only [AribcapDb.ingestFile, identified, unindexed.row,
      SearchDb.markRecordingStartedAtCollisionLoser, absent, ingestTail, ingestPieces_pieces,
      commitScan]
  · exact (start.run (wellFormed.scanning identified starts) _).commit _ _

/-- A file of which nothing is known is indexed as a whole. -/
theorem Unindexed.ingestFile (unindexed : Unindexed db file)
    (wellFormed : WellFormed crates archiveRoot db)
    (identified : identify crates archiveRoot file.path = some file) (content : List UInt8)
    (mtime : ℕ) :
    ∃ after, ingestFile crates archiveRoot db file.path (prefixAccess content mtime) =
        .ok after ∧
      Shows crates.unicode after file (fileIndex crates.serde content) := by
  obtain ⟨after, ran, shown, _⟩ := unindexed.ingestFile_stat wellFormed identified content
    ⟨content.length, mtime⟩
  exact ⟨after, ran, shown⟩

/-- A file that is shown up to some content is skipped when `stat` gives the offset reached, and
otherwise indexed as it is read, under the size from `stat`. -/
theorem Shows.ingestFile_stat {content : List UInt8}
    (shown : Shows crates.unicode db file (fileIndex crates.serde content))
    (wellFormed : WellFormed crates archiveRoot db)
    (identified : identify crates archiveRoot file.path = some file) (more : List UInt8)
    (metadata : ArchiveFileMetadata) (covers : content.length ≤ metadata.sizeBytes) :
    ∃ after, AribcapDb.ingestFile crates archiveRoot db file.path
        ⟨some metadata, some (content ++ more)⟩ = .ok after ∧
      (metadata.sizeBytes = Framing.framedLength newline content → after = db) ∧
      (metadata.sizeBytes ≠ Framing.framedLength newline content →
        Shows crates.unicode after file (fileIndex crates.serde (content ++ more)) ∧
          ∃ row, after.indexedFile file.path = some row ∧
            row.sizeBytes = metadata.sizeBytes) := by
  obtain ⟨row, found, ok, offset, lines, program⟩ := shown.row
  have position := offset.trans (offset_fileIndex crates.serde content)
  have bound : row.indexedOffset ≤ metadata.sizeBytes :=
    position.trans_le ((Framing.framedLength_le newline content).trans covers)
  have usable : ¬ (row.status = .duplicate ∨ row.status = .error) := by simp [ok]
  by_cases complete : metadata.sizeBytes = row.indexedOffset
  · refine ⟨db, ?_, fun _ => rfl, fun other => absurd (complete.trans position) other⟩
    simp [AribcapDb.ingestFile, identified, found, ok, complete]
  · have larger : row.indexedOffset < metadata.sizeBytes :=
      lt_of_le_of_ne bound (Ne.symm complete)
    have starts : StartsAt db file metadata row.programId row.indexedOffset row.indexedLines :=
      .resume row found ok larger
    have start : ScanShows crates.unicode file
        ⟨db, row.programId, row.indexedOffset, row.indexedLines⟩
        (fileIndex crates.serde content) := ⟨offset, lines, program⟩
    refine ⟨commitScan crates db file metadata (content ++ more) row.programId
      row.indexedOffset row.indexedLines, ?_,
      fun same => absurd (same.trans position.symm) complete,
      fun _ => ⟨?_, sizeBytes_commitScan _ _ _ _ _⟩⟩
    · simp only [AribcapDb.ingestFile, identified, found, usable, ↓reduceIte,
        not_lt_of_gt larger, complete, ingestTail, ingestPieces_pieces, commitScan]
    · rw [fileIndex_append, ← offset]
      exact (start.run (wellFormed.scanning identified starts) _).commit _ _

/-- A file that is shown up to some content is indexed further when it has grown. -/
theorem Shows.ingestFile {content : List UInt8}
    (shown : Shows crates.unicode db file (fileIndex crates.serde content))
    (wellFormed : WellFormed crates archiveRoot db)
    (identified : identify crates archiveRoot file.path = some file) (more : List UInt8)
    (mtime : ℕ) :
    ∃ after, ingestFile crates archiveRoot db file.path
        (prefixAccess (content ++ more) mtime) = .ok after ∧
      Shows crates.unicode after file (fileIndex crates.serde (content ++ more)) := by
  have covers : content.length ≤ (content ++ more).length := by
    rw [List.length_append]
    exact Nat.le_add_right _ _
  obtain ⟨after, ran, skipped, read⟩ := shown.ingestFile_stat wellFormed identified more
    ⟨(content ++ more).length, mtime⟩ covers
  refine ⟨after, ran, ?_⟩
  by_cases complete : (content ++ more).length = Framing.framedLength newline content
  · rw [skipped complete, fileIndex_append, offset_fileIndex, ← complete, List.drop_length]
    exact shown
  · exact (read complete).1

/-- `ingest_file` run at a sequence of prefixes of one file. -/
def ingestPrefixes (crates : Crates) (archiveRoot : String) (db : SearchDb) (path : String)
    (content : List UInt8) (visits : List (ℕ × ℕ)) : Except String SearchDb :=
  visits.foldlM (fun db visit =>
    ingestFile crates archiveRoot db path (prefixAccess (content.take visit.1) visit.2)) db

/-- The state between visits: nothing is known yet, or the last prefix is shown. -/
def ShowsPrefix (crates : Crates) (db : SearchDb) (file : FileIdentity)
    (content : List UInt8) (visits : List (ℕ × ℕ)) : Prop :=
  match visits.getLast? with
  | none => Unindexed db file
  | some last => Shows crates.unicode db file
      (fileIndex crates.serde (content.take last.1))

theorem ingestPrefixes_shows (wellFormed : WellFormed crates archiveRoot db)
    (identified : identify crates archiveRoot file.path = some file)
    (unindexed : Unindexed db file) (content : List UInt8) (visits : List (ℕ × ℕ))
    (growing : visits.Pairwise fun first second => first.1 ≤ second.1) :
    ∃ after, ingestPrefixes crates archiveRoot db file.path content visits = .ok after ∧
      WellFormed crates archiveRoot after ∧ ShowsPrefix crates after file content visits := by
  induction visits using List.reverseRecOn with
  | nil => exact ⟨db, rfl, wellFormed, unindexed⟩
  | append_singleton earlier visit ih =>
      obtain ⟨before, last⟩ := List.pairwise_append.mp growing
      obtain ⟨middle, ran, formed, shown⟩ := ih before
      have step : ∃ after, ingestFile crates archiveRoot middle file.path
          (prefixAccess (content.take visit.1) visit.2) = .ok after ∧
            Shows crates.unicode after file
              (fileIndex crates.serde (content.take visit.1)) := by
        unfold ShowsPrefix at shown
        cases latest : earlier.getLast? with
        | none =>
            rw [latest] at shown
            exact shown.ingestFile formed identified _ _
        | some previous =>
            rw [latest] at shown
            have grown : previous.1 ≤ visit.1 :=
              last.2 previous (List.mem_of_getLast? latest) visit List.mem_cons_self
            have split : content.take visit.1 = content.take previous.1 ++
                (content.take visit.1).drop previous.1 := by
              conv_lhs => rw [← List.take_append_drop previous.1 (content.take visit.1),
                List.take_take, min_eq_left grown]
            rw [split]
            exact shown.ingestFile formed identified _ _
      obtain ⟨after, ingested, result⟩ := step
      refine ⟨after, ?_, formed.ingestFile ingested, ?_⟩
      · unfold ingestPrefixes at ran ⊢
        rw [List.foldlM_append, ran]
        simp only [List.foldlM_cons, List.foldlM_nil, bind_pure]
        exact ingested
      · unfold ShowsPrefix
        rw [List.getLast?_concat]
        exact result

/-- The rows of a file up to surrogate row ids. -/
structure FileRows where
  program : Option (FileIdentity × ProgramMetadata)
  genres : Set Genre
  captions : List (IndexedCaption × String)
  /-- `indexed_offset` and `indexed_lines`. -/
  indexed : Option (ℕ × ℕ)

def fileRows (db : SearchDb) (path : String) : FileRows :=
  let row := db.programs.find? fun row => row.path = path
  { program := row.map fun row => (row.toFileIdentity, row.metadata)
    genres := {genre | ∃ id ∈ row.map ProgramRow.id, ⟨id, genre⟩ ∈ db.programGenres}
    captions := (row.elim [] fun row => db.captionsOf row.id).map fun caption =>
      (caption.indexed, caption.normalizedText)
    indexed := (db.indexedFile path).map fun row => (row.indexedOffset, row.indexedLines) }

/-- The rows that show an index are determined by it. -/
theorem Shows.fileRows_eq {index : FileIndex}
    (shown : Shows crates.unicode db file index)
    (wellFormed : WellFormed crates archiveRoot db)
    (identified : identify crates archiveRoot file.path = some file) :
    fileRows db file.path =
      { program := index.program.map fun content =>
          (file, programMetadata crates.unicode content.eit)
        genres := {genre | ∃ content ∈ index.program, genre ∈ content.eit.genres}
        captions := (index.program.elim [] ProgramIndex.captions).map fun caption =>
          (caption, searchIndexText crates.unicode caption.caption.text)
        indexed := some (index.offset, index.lines) } := by
  obtain ⟨row, found, _, offset, lines, program⟩ := shown.row
  cases read : index.program with
  | none =>
      rw [read] at program
      have absent : db.programs.find? (fun row => row.path = file.path) = none := by
        rw [List.find?_eq_none]
        intro other member path
        have known := wellFormed.linked.identified other member
        rw [show other.path = file.path by simpa using path, identified] at known
        exact program.2 other member (by rw [Option.some.inj known])
      simp [fileRows, absent, found, offset, lines]
  | some content =>
      rw [read] at program
      obtain ⟨id, _, has⟩ := program
      have present : db.programs.find? (fun row => row.path = file.path) =
          some { file with id, metadata := programMetadata crates.unicode content.eit } := by
        cases search : db.programs.find? (fun row => row.path = file.path) with
        | none =>
            have absent := List.find?_eq_none.mp search _ has.program
            simp at absent
        | some other =>
            have member := List.mem_of_find?_eq_some search
            have path : other.path = file.path := by simpa using List.find?_some search
            rw [wellFormed.linked.program_eq wellFormed.tables member has.program path]
      have texts : (db.captionsOf id).map (fun caption =>
          (caption.indexed, caption.normalizedText)) = content.captions.map fun caption =>
            (caption, searchIndexText crates.unicode caption.caption.text) := by
        rw [← has.captions, List.map_map]
        apply List.map_congr_left
        intro caption member
        have normalized := wellFormed.tables.captionTexts caption (List.mem_filter.mp member).1
        simp only [Function.comp_apply, CaptionRow.indexed, Prod.mk.injEq, true_and]
        exact normalized
      simp only [fileRows, present, found, offset, lines, Option.map_some, Option.elim_some,
        texts]
      congr 1
      ext genre
      simp [has.genres]

/-- A pass that read a prefix stopped at the end of a line, with the lines before it counted. -/
theorem Shows.boundary {content : List UInt8} {length : ℕ}
    (shown : Shows crates.unicode db file (fileIndex crates.serde (content.take length)))
    {row : IndexedFileRow} (found : db.indexedFile file.path = some row) :
    Framing.IsBoundary newline content row.indexedOffset ∧
      row.indexedLines = (content.take row.indexedOffset).count newline := by
  obtain ⟨stored, present, _, offset, lines, _⟩ := shown.row
  rw [found, Option.some.injEq] at present
  subst present
  rw [offset_fileIndex] at offset
  rw [lines_fileIndex] at lines
  constructor
  · have boundary := (Framing.isBoundary_framedLength newline (content.take length)).append newline
      (content.drop length)
    rwa [List.take_append_drop, ← offset] at boundary
  · have inside : row.indexedOffset ≤ length := by
      have bound := Framing.framedLength_le newline (content.take length)
      rw [← offset, List.length_take] at bound
      omega
    have counted := Framing.count_take_framedLength newline (content.take length)
    rw [← offset, List.take_take, min_eq_left inside] at counted
    rw [lines, counted]

/-- Visiting a growing file pass by pass gives the rows of one pass over its final content, and
every pass stops at the end of a line with the lines before it counted. -/
theorem incremental_eq_oneShot (reachable : IndexReachable crates archiveRoot db)
    {path : String} (identified : identify crates archiveRoot path = some file)
    (unindexed : db.indexedFile path = none)
    (alone : ∀ program ∈ db.programs, program.group ≠ file.group)
    {content : List UInt8} {visits : List (ℕ × ℕ)} {mtime : ℕ}
    (growing : visits.Pairwise fun first second => first.1 ≤ second.1)
    (complete : visits.getLast? = some (content.length, mtime)) :
    (∃ final oneShot,
      ingestPrefixes crates archiveRoot db path content visits = .ok final ∧
        ingestFile crates archiveRoot db path (prefixAccess content mtime) =
          .ok oneShot ∧
        fileRows final path = fileRows oneShot path) ∧
      ∀ passes, passes <+: visits → ∃ middle,
        ingestPrefixes crates archiveRoot db path content passes = .ok middle ∧
          ∀ row, middle.indexedFile path = some row →
            Framing.IsBoundary newline content row.indexedOffset ∧
              row.indexedLines = (content.take row.indexedOffset).count newline := by
  obtain rfl := path_of_identify identified
  have wellFormed := reachable.wellFormed
  have start : Unindexed db file := ⟨unindexed, alone⟩
  constructor
  · obtain ⟨final, ran, formed, shown⟩ :=
      ingestPrefixes_shows wellFormed identified start content visits growing
    obtain ⟨oneShot, once, direct⟩ := start.ingestFile wellFormed identified content mtime
    unfold ShowsPrefix at shown
    rw [complete] at shown
    simp only [List.take_length] at shown
    refine ⟨final, oneShot, ran, once, ?_⟩
    rw [shown.fileRows_eq formed identified,
      direct.fileRows_eq (wellFormed.ingestFile once) identified]
  · intro passes earlier
    obtain ⟨middle, ran, _, shown⟩ := ingestPrefixes_shows wellFormed identified start content
      passes (growing.sublist earlier.sublist)
    refine ⟨middle, ran, fun row found => ?_⟩
    unfold ShowsPrefix at shown
    cases latest : passes.getLast? with
    | none =>
        rw [latest] at shown
        rw [shown.row] at found
        cases found
    | some last =>
        rw [latest] at shown
        exact shown.boundary found

end Ingest

/-- The sample file visited inside its first line, inside its second one, and at its end. -/
theorem incremental_eq_oneShot_sample :
    ∃ final oneShot,
      ingestPrefixes Sample.crates "data/archive" .migrated Sample.newsPath Sample.newsFile
          [(10, 0), (60, 1), (Sample.newsFile.length, 2)] = .ok final ∧
        ingestFile Sample.crates "data/archive" .migrated Sample.newsPath
          (prefixAccess Sample.newsFile 2) = .ok oneShot ∧
        fileRows final Sample.newsPath = fileRows oneShot Sample.newsPath := by
  have identified : identify Sample.crates "data/archive" Sample.newsPath =
      some ⟨"nhk", "2026-07", "2026-07-01_12-00-01.no-title.jsonl", Sample.newsPath,
        "2026-07-01_12-00-01"⟩ := by decide +kernel
  have growing : [(10, 0), (60, 1), (Sample.newsFile.length, 2)].Pairwise
      fun first second => first.1 ≤ second.1 := by decide +kernel
  exact (incremental_eq_oneShot (.initial rfl) identified rfl (by simp [SearchDb.migrated])
    growing rfl).1

end AribcapDb
