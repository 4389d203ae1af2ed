import AribcapDb.Search.Coverage

/-! # The index as a view of the archive

Whatever happens to the archive and in whichever order its files are visited, the rows of a
program are what the part of its file that has been read amounts to: the last present EIT and the
captions since the first one (`ArchiveHistory.Mirrors.run`). A file that takes the program of its
group from another one brings its own rows, and a file that loses it leaves none. -/

namespace AribcapDb

/-- The rows of a program are those of an index of its file. -/
structure ShowsIndex (unicode : Unicode) (db : SearchDb) (program : ProgramRow)
    (index : ProgramIndex) : Prop where
  metadata : program.metadata = programMetadata unicode index.eit
  genres : ∀ genre, ⟨program.id, genre⟩ ∈ db.programGenres ↔ genre ∈ index.eit.genres
  captions : (db.captionsOf program.id).map CaptionRow.indexed = index.captions

/-- A program shows what was read of its file. -/
def ShowsRead (crates : Crates) (db : SearchDb) (seen : String → List UInt8)
    (program : ProgramRow) : Prop :=
  ∃ index, (fileIndex crates.serde (seen program.path)).program = some index ∧
    ShowsIndex crates.unicode db program index

/-- A scan state shows what was read of its file, and other programs go on showing theirs. -/
structure ScanReads (crates : Crates) (file : FileIdentity) (seen : String → List UInt8)
    (state : ScanState) (index : FileIndex) : Prop where
  pos : state.pos = index.offset
  lineNo : state.lineNo = index.lines
  known : state.programId.isSome = index.program.isSome
  own : ∀ program ∈ state.db.programs, program.path = file.path →
    ∃ content, index.program = some content ∧ ShowsIndex crates.unicode state.db program content
  others : ∀ program ∈ state.db.programs, program.path ≠ file.path →
    ShowsRead crates state.db seen program

variable {crates : Crates} {archiveRoot : String} {seen : String → List UInt8}

/-- A file has a program from its first present EIT on. -/
theorem isSome_program_read (serde : SerdeJson) (index : FileIndex) (line : List UInt8) :
    (index.read serde line).program.isSome =
      (index.program.isSome || isPresentEitLine serde line) := by
  simp only [FileIndex.read, isPresentEitLine]
  cases lineRecord serde line with
  | skipped => simp [FileIndex.readRecord]
  | eit eit => simp [FileIndex.readRecord]
  | caption caption => simp [FileIndex.readRecord]

theorem isSome_program_fileIndex (serde : SerdeJson) (content : List UInt8) :
    (fileIndex serde content).program.isSome = hasPresentEit serde content := by
  unfold fileIndex hasPresentEit
  induction Framing.frames newline content using List.reverseRecOn with
  | nil => rfl
  | append_singleton lines line ih =>
      rw [List.foldl_append, List.any_append, ← ih, List.foldl_cons, List.foldl_nil,
        isSome_program_read, List.any_cons, List.any_nil, Bool.or_false]

/-- The rows of a program stay while another group is touched. -/
theorem ShowsIndex.frame {before after : SearchDb} {file : FileIdentity} {program : ProgramRow}
    {index : ProgramIndex} (shows' : ShowsIndex crates.unicode before program index)
    (untouched : Untouched crates archiveRoot file before after)
    (member : program ∈ before.programs) (different : program.group ≠ file.group) :
    ShowsIndex crates.unicode after program index := by
  refine ⟨shows'.metadata, fun genre => ?_, ?_⟩
  · rw [untouched.genres program member different]
    exact shows'.genres genre
  · rw [untouched.captions program member different]
    exact shows'.captions

namespace Scanning

variable {file : FileIdentity} {state : ScanState}

/-- A program of the path that is scanned is in the group of the scanned file. -/
theorem group_of_path (scanning : Scanning crates archiveRoot file state) {program : ProgramRow}
    (member : program ∈ state.db.programs) (path : program.path = file.path) :
    program.group = file.group := by
  have identified := scanning.linked.identified program member
  rw [path, scanning.own] at identified
  rw [Option.some.inj identified]

/-- No program of another path is in the group of a program of the scanned file. -/
theorem group_ne_of_path (scanning : Scanning crates archiveRoot file state)
    {owner program : ProgramRow} (present : owner ∈ state.db.programs)
    (path : owner.path = file.path) (member : program ∈ state.db.programs)
    (other : program.path ≠ file.path) : program.group ≠ file.group := by
  intro same
  have group := scanning.group_of_path present path
  have equal := scanning.tables.programGroups.eq_of_key member present (same.trans group.symm)
  exact other (equal ▸ path)

end Scanning

namespace ScanReads

variable {file : FileIdentity} {state : ScanState} {index : FileIndex}

theorem unread (reads : ScanReads crates file seen state index)
    (unknown : state.programId = none) : index.program = none := by
  have same := reads.known
  rw [unknown] at same
  simpa using same.symm

/-- The captions that the program of a file has when a present EIT is read: those that are known,
and none of a rival. -/
theorem captions_upsertProgram (reads : ScanReads crates file seen state index)
    (scanning : Scanning crates archiveRoot file state) (eit : EitPresent) :
    ((state.db.upsertProgram crates.unicode file eit).2.captionsOf
      (state.db.upsertProgram crates.unicode file eit).1).map CaptionRow.indexed =
        (index.program.map ProgramIndex.captions).getD [] := by
  have upserted :=
    (upsertProgram_spec scanning.tables scanning.linked.identified scanning.own eit).2
  cases known : state.programId with
  | some id =>
      obtain ⟨owner, present, same, path⟩ := scanning.exists_program known
      obtain ⟨content, read, shown⟩ := reads.own owner present path
      have alone : ∀ rival ∈ state.db.rival file, owner.id ≠ rival.id := by
        intro rival found equal
        obtain ⟨there, group, other⟩ := (mem_rival scanning.tables).mp found
        exact scanning.group_ne_of_path present path there other group
      have own : owner.id = (state.db.upsertProgram crates.unicode file eit).1 :=
        (upserted.id_iff owner present).mpr (scanning.group_of_path present path)
      rw [← own, captionsOf_upsertProgram alone, shown.captions, read]
      rfl
  | none =>
      have free : (state.db.upsertProgram crates.unicode file eit).2.captionsOf
          (state.db.upsertProgram crates.unicode file eit).1 = [] := by
        unfold SearchDb.captionsOf
        rw [List.filter_eq_nil_iff]
        intro caption member own
        obtain ⟨old, kept⟩ := (upserted.caption caption).mp member
        obtain ⟨owner, there, same, _⟩ := scanning.linked.captionOwner caption old
        have group := (upserted.id_iff owner there).mp (same.trans (by simpa using own))
        have path : owner.path ≠ file.path := by
          intro path
          obtain ⟨content, read, _⟩ := reads.own owner there path
          rw [reads.unread known] at read
          cases read
        exact kept owner ((mem_rival scanning.tables).mpr ⟨there, group, path⟩) same.symm
      rw [free, reads.unread known]
      rfl

/-- A line adds to the program of its own file. -/
theorem own_step (reads : ScanReads crates file seen state index)
    (scanning : Scanning crates archiveRoot file state) (line : List UInt8) :
    ∀ program ∈ (ingestLine crates file state line).db.programs, program.path = file.path →
      ∃ content, (index.read crates.serde line).program = some content ∧
        ShowsIndex crates.unicode (ingestLine crates file state line).db program content := by
  rw [ingestLine_eq]
  intro program member own
  cases record : lineRecord crates.serde line with
  | skipped =>
      rw [record] at member
      simpa only [FileIndex.read, record, FileIndex.readRecord] using reads.own program member own
  | eit eit =>
      have upserted :=
        (upsertProgram_spec scanning.tables scanning.linked.identified scanning.own eit).2
      rw [record] at member
      simp only [FileIndex.read, record, FileIndex.readRecord]
      rcases (upserted.program program).mp member with rfl | ⟨old, foreign⟩
      · refine ⟨_, rfl, rfl, fun genre => ?_, reads.captions_upsertProgram scanning eit⟩
        rw [upserted.genre]
        simp
      · exact absurd (scanning.group_of_path old own) foreign
  | caption caption =>
      cases known : state.programId with
      | none =>
          rw [record, known] at member
          obtain ⟨content, read, _⟩ := reads.own program member own
          rw [reads.unread known] at read
          cases read
      | some id =>
          rw [record, known] at member
          obtain ⟨owner, present, same, path⟩ := scanning.exists_program known
          obtain ⟨content, read, shown⟩ := reads.own owner present path
          have inserted := insertCaptionLine_of_fresh crates.unicode
            (scanning.fresh_key known) state.pos caption
          simp only [inserted] at member ⊢
          have one : program = owner :=
            scanning.linked.program_eq scanning.tables member present (own.trans path.symm)
          subst one
          simp only [FileIndex.read, record, FileIndex.readRecord, read, Option.map_some]
          refine ⟨_, rfl, shown.metadata, shown.genres, ?_⟩
          have before := shown.captions
          unfold SearchDb.captionsOf at before ⊢
          rw [same] at before ⊢
          simp [SearchDb.insertCaption, before, CaptionRow.indexed, reads.pos, reads.lineNo]

/-- A line adds nothing to the programs of other files. -/
theorem others_step (reads : ScanReads crates file seen state index)
    (scanning : Scanning crates archiveRoot file state) (line : List UInt8) :
    ∀ program ∈ (ingestLine crates file state line).db.programs, program.path ≠ file.path →
      ShowsRead crates (ingestLine crates file state line).db seen program := by
  intro program member other
  have foreign : program ∈ state.db.programs ∧ (program.group ≠ file.group ∨
      (ingestLine crates file state line).db = state.db) := by
    rw [ingestLine_eq] at member ⊢
    cases record : lineRecord crates.serde line with
    | skipped =>
        rw [record] at member
        exact ⟨member, .inr rfl⟩
    | eit eit =>
        rw [record] at member
        have upserted :=
          (upsertProgram_spec scanning.tables scanning.linked.identified scanning.own eit).2
        rcases (upserted.program program).mp member with rfl | ⟨old, foreign⟩
        · exact absurd rfl other
        · exact ⟨old, .inl foreign⟩
    | caption caption =>
        cases known : state.programId with
        | none =>
            rw [record, known] at member
            exact ⟨member, .inr rfl⟩
        | some id =>
            rw [record, known] at member
            obtain ⟨owner, present, _, path⟩ := scanning.exists_program known
            simp only [insertCaptionLine_of_fresh crates.unicode (scanning.fresh_key known)]
              at member
            have old : program ∈ state.db.programs := member
            exact ⟨old, .inl (scanning.group_ne_of_path present path old other)⟩
  obtain ⟨old, different | same⟩ := foreign
  · obtain ⟨content, read, shown⟩ := reads.others program old other
    exact ⟨content, read, shown.frame (scanning.untouched_step line) old different⟩
  · rw [same]
    exact reads.others program old other

/-- Every line keeps what is shown. -/
theorem step (reads : ScanReads crates file seen state index)
    (scanning : Scanning crates archiveRoot file state) (line : List UInt8) :
    ScanReads crates file seen (ingestLine crates file state line)
      (index.read crates.serde line) := by
  obtain ⟨pos, lineNo, known⟩ := foldl_ingestLine crates file state [line]
  rw [List.foldl_cons, List.foldl_nil] at pos lineNo known
  refine ⟨?_, ?_, ?_, reads.own_step scanning line, reads.others_step scanning line⟩
  · rw [pos, reads.pos]
    simp [FileIndex.read, Framing.unframe_cons]
  · rw [lineNo, reads.lineNo]
    rfl
  · rw [known, reads.known, isSome_program_read, List.any_cons, List.any_nil, Bool.or_false]

theorem run (reads : ScanReads crates file seen state index)
    (scanning : Scanning crates archiveRoot file state) (lines : List (List UInt8)) :
    ScanReads crates file seen (lines.foldl (ingestLine crates file) state)
      (lines.foldl (FileIndex.read crates.serde) index) := by
  induction lines generalizing state index with
  | nil => exact reads
  | cons line more ih =>
      rw [List.foldl_cons, List.foldl_cons]
      exact ih (reads.step scanning line) (scanning.step line)

end ScanReads

/-- The index shows what was read of each file. -/
structure Mirrors (crates : Crates) (db : SearchDb) (seen : String → List UInt8) : Prop where
  rows : ∀ path row, db.indexedFile path = some row → row.status ≠ .duplicate →
    Summarizes crates.serde row (seen path)
  programs : ∀ program ∈ db.programs, ShowsRead crates db seen program

section Ingest

variable {db after : SearchDb} {file : FileIdentity} {access : FileAccess}

/-- Reading on from the end of the lines that were read. -/
theorem fileIndex_resume (serde : SerdeJson) (before more : List UInt8) :
    fileIndex serde (before.take (Framing.framedLength newline before) ++ more) =
      (Framing.frames newline more).foldl (FileIndex.read serde) (fileIndex serde before) := by
  have free : ∀ frame ∈ Framing.frames newline before, newline ∉ frame :=
    fun _ => Framing.not_mem_of_mem_frames newline
  rw [Framing.take_framedLength, fileIndex, Framing.frames_unframe_append newline free,
    List.foldl_append]
  rfl

/-- The rows of programs do not depend on those of paths. -/
theorem ShowsRead.upsertIndexedFiles {program : ProgramRow}
    (shown : ShowsRead crates db seen program) (change : IndexedFileRow → IndexedFileRow)
    (row : IndexedFileRow) : ShowsRead crates (db.upsertIndexedFiles change row) seen program := by
  obtain ⟨content, read, shown⟩ := shown
  exact ⟨content, read, shown.metadata, shown.genres, shown.captions⟩

/-- A scan reads the rest of its file. -/
theorem Mirrors.commitScan (mirrors : Mirrors crates db seen)
    (wellFormed : WellFormed crates archiveRoot db)
    (identified : identify crates archiveRoot file.path = some file)
    {metadata : ArchiveFileMetadata} {programId : Option ℕ} {startOffset lineNo : ℕ}
    (starts : StartsAt db file metadata programId startOffset lineNo) (content : List UInt8)
    (others : ∀ other row, other ≠ file.path →
      (AribcapDb.commitScan crates db file metadata content programId startOffset
        lineNo).indexedFile other = some row → row.status ≠ .duplicate →
          db.indexedFile other = some row) :
    Mirrors crates (AribcapDb.commitScan crates db file metadata content programId startOffset
      lineNo) (Function.update seen file.path
        ((seen file.path).take startOffset ++ content.drop startOffset)) := by
  have start : ∃ index, ScanReads crates file seen ⟨db, programId, startOffset, lineNo⟩ index ∧
      (Framing.frames newline (content.drop startOffset)).foldl (FileIndex.read crates.serde)
        index = fileIndex crates.serde
          ((seen file.path).take startOffset ++ content.drop startOffset) := by
    cases starts with
    | resume row found ok _ =>
        have summary := mirrors.rows _ row found (by simp [ok])
        refine ⟨fileIndex crates.serde (seen file.path), ⟨?_, ?_, ?_, ?_, ?_⟩, ?_⟩
        · rw [offset_fileIndex]
          exact summary.offset
        · rw [lines_fileIndex]
          exact summary.lines
        · rw [isSome_program_fileIndex]
          exact summary.program
        · intro program member path
          have shown := mirrors.programs program member
          rwa [ShowsRead, path] at shown
        · exact fun program member _ => mirrors.programs program member
        · rw [summary.offset]
          exact (fileIndex_resume _ _ _).symm
    | fresh absent _ =>
        refine ⟨.empty, ⟨rfl, rfl, rfl, fun program member path => ?_,
          fun program member _ => mirrors.programs program member⟩, rfl⟩
        obtain ⟨row, found, _⟩ := wellFormed.linked.owner program member
        rw [path, absent] at found
        cases found
  obtain ⟨index, start, rest⟩ := start
  have scanned := start.run (wellFormed.scanning identified starts)
    (Framing.frames newline (content.drop startOffset))
  have scanning := (wellFormed.scanning identified starts).run
    (Framing.frames newline (content.drop startOffset))
  rw [rest] at scanned
  unfold AribcapDb.commitScan at others ⊢
  generalize (Framing.frames newline (content.drop startOffset)).foldl (ingestLine crates file)
    ⟨db, programId, startOffset, lineNo⟩ = state at scanned scanning others ⊢
  refine ⟨fun path row found status => ?_, fun program member => ?_⟩
  · by_cases same : path = file.path
    · subst same
      dsimp only at found
      rw [indexedFile_upsertIndexedFile, if_pos rfl] at found
      obtain rfl := Option.some.inj found
      rw [Function.update_self]
      refine ⟨?_, ?_, ?_⟩
      · exact scanned.pos.trans (offset_fileIndex _ _)
      · exact scanned.lineNo.trans (lines_fileIndex _ _)
      · exact scanned.known.trans (isSome_program_fileIndex _ _)
    · rw [Function.update_of_ne same]
      exact mirrors.rows path row (others path row same found status) status
  · by_cases same : program.path = file.path
    · obtain ⟨content, read, shown⟩ := scanned.own program member same
      refine ⟨content, ?_, ⟨shown.metadata, shown.genres, shown.captions⟩⟩
      rw [same, Function.update_self]
      exact read
    · obtain ⟨content, read, shown⟩ := scanned.others program member same
      refine ⟨content, ?_, ⟨shown.metadata, shown.genres, shown.captions⟩⟩
      rw [Function.update_of_ne same]
      exact read

/-- What a scan has read is the content, when it goes on in what it has read before. -/
theorem take_append_drop_beginning {before content : List UInt8} (inside : before <+: content)
    {position : ℕ} (small : position ≤ before.length) :
    before.take position ++ content.drop position = content := by
  obtain ⟨more, rfl⟩ := inside
  have cut : (before ++ more).take position = before.take position :=
    List.take_append_of_le_length small
  rw [← cut, List.take_append_drop]

/-- A visit reads its file to the end, or leaves what is known of it. -/
theorem Mirrors.ingested (mirrors : Mirrors crates db seen)
    (wellFormed : WellFormed crates archiveRoot db)
    (identified : identify crates archiveRoot file.path = some file)
    (ingested : Ingested crates archiveRoot db file.path access after) {content : List UInt8}
    (read : access.content = some content) :
    ∃ later, Mirrors crates after later ∧ (∀ other, other ≠ file.path → later other = seen other) ∧
      ((∀ row, db.indexedFile file.path = some row → row.status ≠ .duplicate →
          seen file.path <+: content) →
        ∀ row, after.indexedFile file.path = some row → row.status ≠ .duplicate →
          later file.path <+: content) := by
  have ownership := ingested.ownership wellFormed identified
  generalize readsPresentEit crates archiveRoot db file.path access = taken at ownership
  cases ingested with
  | unidentified _ => exact ⟨seen, mirrors, fun _ _ => rfl, id⟩
  | sticky _ _ _ => exact ⟨seen, mirrors, fun _ _ => rfl, id⟩
  | current _ _ _ _ _ _ => exact ⟨seen, mirrors, fun _ _ => rfl, id⟩
  | lost _ winner row _ absent _ _ own _ duplicate =>
      have rows (path : String) : (db.upsertIndexedFiles (fun _ => row) row).indexedFile path =
          if path = row.path then some ((db.indexedFile path).elim row fun _ => row)
          else db.indexedFile path :=
        SearchDb.indexedFile_upsertIndexedFiles db _ row (fun _ equal => equal.symm) path
      have lost : (db.upsertIndexedFiles (fun _ => row) row).indexedFile file.path = some row := by
        rw [rows, if_pos own.symm, absent]
        rfl
      refine ⟨seen, ⟨fun path other found status => ?_, fun program member =>
        (mirrors.programs program member).upsertIndexedFiles _ _⟩, fun _ _ => rfl,
        fun _ other found status => ?_⟩
      · by_cases same : path = file.path
        · rw [same, lost] at found
          exact absurd (Option.some.inj found ▸ duplicate) status
        · rw [rows, if_neg (own ▸ same)] at found
          exact mirrors.rows path other found status
      · rw [lost] at found
        exact absurd (Option.some.inj found ▸ duplicate) status
  | shrunk row metadata lastError _ found ok _ =>
      have marked := indexedFile_markIndexingError found row.programId metadata.sizeBytes
        metadata.mtime lastError
      refine ⟨seen, ⟨fun path other known status => ?_, fun program member =>
        (mirrors.programs program member).upsertIndexedFiles _ _⟩, fun _ _ => rfl,
        fun inside _ _ _ => inside row found (by simp [ok])⟩
      by_cases same : path = file.path
      · rw [same, marked] at known
        obtain rfl := Option.some.inj known
        have summary := mirrors.rows _ row found (by simp [ok])
        rw [same]
        exact ⟨summary.offset, summary.lines, summary.program⟩
      · rcases ownership.rows same with kept | ⟨_, demoted, _, duplicate, there⟩
        · exact mirrors.rows path other (kept ▸ known) status
        · rw [there, Option.some.injEq] at known
          exact absurd (known ▸ duplicate) status
  | scanned own metadata content' programId startOffset lineNo known _ _ read' starts =>
      obtain rfl : own = file := Option.some.inj (known.symm.trans identified)
      obtain rfl : content = content' := Option.some.inj (read.symm.trans read')
      have others : ∀ other row, other ≠ own.path →
          (AribcapDb.commitScan crates db own metadata content programId startOffset
            lineNo).indexedFile other = some row → row.status ≠ .duplicate →
              db.indexedFile other = some row := by
        intro other row different found status
        rcases ownership.rows different with kept | ⟨_, demoted, _, duplicate, there⟩
        · exact kept ▸ found
        · rw [there, Option.some.injEq] at found
          exact absurd (found ▸ duplicate) status
      refine ⟨_, mirrors.commitScan wellFormed identified starts content others,
        fun other different => Function.update_of_ne different .., fun inside _ _ _ => ?_⟩
      rw [Function.update_self]
      cases starts with
      | resume row found ok _ =>
          have summary := mirrors.rows _ row found (by simp [ok])
          have small := summary.offset.trans_le (Framing.framedLength_le newline _)
          rw [take_append_drop_beginning (inside row found (by simp [ok])) small]
      | fresh _ _ => exact List.prefix_rfl

/-- A program loses no captions with a path that is not its own. -/
theorem captionsOf_deleteIndexedPath {path : String} {id : ℕ}
    (kept : ∀ program ∈ db.programs, program.path = path → program.id ≠ id) :
    (db.deleteIndexedPath path).captionsOf id = db.captionsOf id := by
  have gone : (db.programs.any fun program => program.path = path && program.id = id) = false := by
    rw [List.any_eq_false]
    intro program member
    simpa using kept program member
  unfold SearchDb.captionsOf SearchDb.deleteIndexedPath SearchDb.deleteIndexedFiles
    SearchDb.deletePrograms SearchDb.updateIndexedFiles SearchDb.deleteCaptions
    SearchDb.deleteGenres
  rw [List.filter_filter]
  apply List.filter_congr
  intro row _
  by_cases own : row.programId = id
  · simp [own, gone]
  · simp [own]

/-- Deleting the rows of a path leaves what other files show. -/
theorem Mirrors.deleteIndexedPath (mirrors : Mirrors crates db seen)
    (wellFormed : WellFormed crates archiveRoot db) (path : String) :
    Mirrors crates (db.deleteIndexedPath path) seen := by
  have deleted := wellFormed.pathDeleted path
  refine ⟨fun other row found status => ?_, fun program member => ?_⟩
  · rw [deleted.indexed] at found
    split at found
    · cases found
    · exact mirrors.rows other row found status
  · obtain ⟨present, other⟩ := (deleted.program program).mp member
    have kept : ∀ gone ∈ db.programs, gone.path = path → gone.id ≠ program.id := by
      intro gone there own same
      exact other (wellFormed.tables.programIds.eq_of_key there present same ▸ own)
    obtain ⟨content, read, shown⟩ := mirrors.programs program present
    refine ⟨content, read, shown.metadata, fun genre => ?_, ?_⟩
    · rw [deleted.genre, and_iff_left kept]
      exact shown.genres genre
    · rw [captionsOf_deleteIndexedPath kept]
      exact shown.captions

theorem Mirrors.deleteIndexedPaths (mirrors : Mirrors crates db seen)
    (wellFormed : WellFormed crates archiveRoot db) (paths : List String) :
    Mirrors crates (paths.foldl SearchDb.deleteIndexedPath db) seen := by
  induction paths generalizing db with
  | nil => exact mirrors
  | cons path more ih =>
      rw [List.foldl_cons]
      exact ih (mirrors.deleteIndexedPath wellFormed path) (wellFormed.deleteIndexedPath path)

end Ingest

namespace ArchiveHistory

/-- The index shows what was read of each file, which is the beginning of what the file is, or was
when it was deleted, unless its path was reused. -/
structure ShowsReads (crates : Crates) (archiveRoot : String) (state : ArchiveHistory)
    (seen : String → List UInt8) : Prop where
  formed : WellFormed crates archiveRoot state.db
  mirrors : Mirrors crates state.db seen
  last : ∀ path content, state.files path = some (.file content) → state.last path = content
  inside : ∀ path row, path ∉ state.reused → state.db.indexedFile path = some row →
    row.status ≠ .duplicate → seen path <+: state.last path

variable {before after state : ArchiveHistory}

namespace ShowsReads

theorem start (started : state.Start) : ShowsReads crates archiveRoot state fun _ => [] := by
  obtain ⟨db, _, last⟩ := started
  refine ⟨db ▸ WellFormed.migrated crates archiveRoot, ⟨?_, ?_⟩, last, fun _ _ _ _ _ =>
    List.nil_prefix⟩
  · simp [db, SearchDb.migrated, SearchDb.indexedFile]
  · simp [db, SearchDb.migrated]

/-- A file is created where the index may still have a row of an earlier file. -/
theorem create (reads : ShowsReads crates archiveRoot before seen) (path : String)
    (content : List UInt8) :
    ShowsReads crates archiveRoot
      { before with
        files := Function.update before.files path (some (.file content))
        reused :=
          if (before.db.indexedFile path).isSome then insert path before.reused
          else before.reused
        last := Function.update before.last path content } seen := by
  refine ⟨reads.formed, reads.mirrors, fun other bytes held => ?_,
    fun other row fresh found status => ?_⟩
  · dsimp only at held ⊢
    by_cases same : other = path
    · rw [same, Function.update_self] at held ⊢
      cases held
      rfl
    · rw [Function.update_of_ne same] at held ⊢
      exact reads.last other bytes held
  · dsimp only at fresh found ⊢
    by_cases same : other = path
    · subst same
      rw [found, Option.isSome_some, if_pos rfl] at fresh
      exact absurd (Set.mem_insert _ _) fresh
    · rw [Function.update_of_ne same]
      refine reads.inside other row (fun reused => fresh ?_) found status
      split
      · exact Set.mem_insert_of_mem _ reused
      · exact reused

theorem grow (reads : ShowsReads crates archiveRoot before seen) {path : String}
    {content : List UInt8} (present : before.files path = some (.file content))
    (more : List UInt8) :
    ShowsReads crates archiveRoot
      { before with
        files := before.files.append path more
        last := Function.update before.last path (content ++ more) } seen := by
  refine ⟨reads.formed, reads.mirrors, fun other bytes held => ?_,
    fun other row fresh found status => ?_⟩
  · dsimp only at held ⊢
    rw [FileSystem.append_file present] at held
    by_cases same : other = path
    · rw [same, Function.update_self] at held ⊢
      cases held
      rfl
    · rw [Function.update_of_ne same] at held ⊢
      exact reads.last other bytes held
  · dsimp only at fresh found ⊢
    have earlier := reads.inside other row fresh found status
    by_cases same : other = path
    · subst same
      rw [reads.last other content present] at earlier
      rw [Function.update_self]
      exact earlier.trans (List.prefix_append _ _)
    · rwa [Function.update_of_ne same]

theorem delete (reads : ShowsReads crates archiveRoot before seen) (path : String) :
    ShowsReads crates archiveRoot
      { before with files := Function.update before.files path none } seen := by
  refine ⟨reads.formed, reads.mirrors, fun other bytes held => ?_, reads.inside⟩
  dsimp only at held
  by_cases same : other = path
  · rw [same, Function.update_self] at held
    cases held
  · rw [Function.update_of_ne same] at held
    exact reads.last other bytes held

theorem cleanup (reads : ShowsReads crates archiveRoot before seen)
    (tryExists : String → Option Bool) :
    ShowsReads crates archiveRoot (before.cleanedUp tryExists) seen := by
  have rows {path : String} {row : IndexedFileRow}
      (found : (before.cleanedUp tryExists).db.indexedFile path = some row) :
      before.db.indexedFile path = some row := by
    have spec := (reads.formed.cleanup_spec tryExists).2 path
    rw [cleanedUp] at found
    rw [spec] at found
    split at found
    · exact found
    · cases found
  refine ⟨reads.formed.cleanup tryExists, reads.mirrors.deleteIndexedPaths reads.formed _,
    reads.last, fun path row fresh found status => ?_⟩
  have known : ((before.cleanedUp tryExists).db.indexedFile path).isSome = true := by
    rw [found]
    rfl
  exact reads.inside path row (fun reused => fresh ⟨reused, known⟩) (rows found) status

theorem visit (reads : ShowsReads crates archiveRoot before seen) {path : String}
    {metadata : Option ArchiveFileMetadata} {content : List UInt8} {db : SearchDb}
    (present : before.files path = some (.file content))
    (ran : ingestFile crates archiveRoot before.db path ⟨metadata, some content⟩ = .ok db) :
    ∃ later, ShowsReads crates archiveRoot { before with db } later := by
  have formed := reads.formed.ingestFile ran
  cases identified : identify crates archiveRoot path with
  | none =>
      rw [ingestFile_of_unidentified identified ran]
      exact ⟨seen, reads⟩
  | some file =>
      obtain rfl := path_of_identify identified
      have ingested := ingestFile_cases ran
      have ownership := ingested.ownership reads.formed identified
      obtain ⟨later, mirrors, others, own⟩ :=
        reads.mirrors.ingested reads.formed identified ingested rfl
      have last := reads.last file.path content present
      refine ⟨later, formed, mirrors, reads.last, fun path row fresh found status => ?_⟩
      by_cases same : path = file.path
      · subst same
        dsimp only
        rw [last]
        exact own (fun old known usable => last ▸ reads.inside _ old fresh known usable) row found
          status
      · rw [others path same]
        rcases ownership.rows same with kept | ⟨_, demoted, _, duplicate, there⟩
        · exact reads.inside path row fresh (kept ▸ found) status
        · rw [found, Option.some.injEq] at there
          exact absurd (there ▸ duplicate) status

theorem step (reads : ShowsReads crates archiveRoot before seen)
    (stepped : Step crates archiveRoot before after) :
    ∃ later, ShowsReads crates archiveRoot after later := by
  cases stepped with
  | create path content _ => exact ⟨seen, reads.create path content⟩
  | grow path content more present => exact ⟨seen, reads.grow present more⟩
  | delete path => exact ⟨seen, reads.delete path⟩
  | visit path metadata content db present ran => exact reads.visit present ran
  | cleanup tryExists => exact ⟨seen, reads.cleanup tryExists⟩

theorem run (reachable : Transition.Reachable Start (Step crates archiveRoot) state) :
    ∃ seen, ShowsReads crates archiveRoot state seen := by
  induction reachable with
  | initial started => exact ⟨_, start started⟩
  | next _ stepped ih =>
      obtain ⟨seen, reads⟩ := ih
      exact reads.step stepped

end ShowsReads

end ArchiveHistory

end AribcapDb
