import AribcapDb.Search.Ingest

/-! # What the statements do to the tables

Every table operation keeps the unique keys and both full-text indexes (`TablesSound`). For the
statements that choose rows by more than one key, the rows after them are described one by one
(`Upserted`), so that later proofs never unfold a statement. -/

namespace AribcapDb

/-- The normalized columns hold the index text of the columns they are computed from. -/
def ProgramMetadata.IsNormalized (unicode : Unicode) (metadata : ProgramMetadata) : Prop :=
  metadata.normalizedTitle = searchIndexText unicode metadata.title ∧
    metadata.normalizedDescription = searchIndexText unicode metadata.description

def CaptionRow.IsNormalized (unicode : Unicode) (row : CaptionRow) : Prop :=
  row.normalizedText = searchIndexText unicode row.caption.text

/-- The unique keys and the full-text indexes of the schema. -/
structure TablesSound (unicode : Unicode) (db : SearchDb) : Prop where
  programIds : Table.Unique ProgramRow.id db.programs
  programGroups : Table.Unique (fun row : ProgramRow => row.group) db.programs
  captionIds : Table.Unique CaptionRow.id db.captionLines
  captionKeys : Table.Unique CaptionRow.key db.captionLines
  genreRows : db.programGenres.Nodup
  programTexts : ∀ program ∈ db.programs, program.metadata.IsNormalized unicode
  captionTexts : ∀ caption ∈ db.captionLines, caption.IsNormalized unicode
  programIndex : Table.Synced programEntry db.programs db.programFts
  captionIndex : Table.Synced captionEntry db.captionLines db.captionFts

namespace TablesSound

variable {unicode : Unicode} {db : SearchDb}

theorem migrated (unicode : Unicode) : TablesSound unicode .migrated where
  programIds := .nil
  programGroups := .nil
  captionIds := .nil
  captionKeys := .nil
  genreRows := List.nodup_nil
  programTexts := by simp [SearchDb.migrated]
  captionTexts := by simp [SearchDb.migrated]
  programIndex := .nil
  captionIndex := .nil

/-- The rows of `indexed_files` are no part of it. -/
theorem of_indexedFiles (sound : TablesSound unicode db) (rows : List IndexedFileRow) :
    TablesSound unicode { db with indexedFiles := rows } :=
  { sound with }

theorem deleteCaptions (sound : TablesSound unicode db) (selected : CaptionRow → Bool) :
    TablesSound unicode (db.deleteCaptions selected) :=
  { sound with
    captionIds := sound.captionIds.filter _
    captionKeys := sound.captionKeys.filter _
    captionTexts := fun caption member =>
      sound.captionTexts caption (List.mem_filter.mp member).1
    captionIndex := sound.captionIndex.delete selected }

theorem insertCaption (sound : TablesSound unicode db) {row : CaptionRow}
    (freshId : ∀ old ∈ db.captionLines, old.id ≠ row.id)
    (freshKey : ∀ old ∈ db.captionLines, old.key ≠ row.key)
    (normalized : row.IsNormalized unicode) :
    TablesSound unicode (db.insertCaption row) :=
  { sound with
    captionIds := sound.captionIds.append_fresh freshId
    captionKeys := sound.captionKeys.append_fresh freshKey
    captionTexts := fun caption member => by
      rcases List.mem_append.mp member with old | new
      · exact sound.captionTexts caption old
      · rwa [List.mem_singleton.mp new]
    captionIndex := sound.captionIndex.insert row }

theorem deleteGenres (sound : TablesSound unicode db) (selected : GenreRow → Bool) :
    TablesSound unicode (db.deleteGenres selected) :=
  { sound with genreRows := sound.genreRows.filter _ }

theorem insertGenre (sound : TablesSound unicode db) (row : GenreRow) :
    TablesSound unicode (db.insertGenre row) := by
  unfold SearchDb.insertGenre
  split
  · exact sound
  · next fresh =>
      refine { sound with genreRows := List.nodup_append.mpr ⟨sound.genreRows, by simp, ?_⟩ }
      rintro old member _ single rfl
      exact fresh (List.mem_singleton.mp single ▸ member)

theorem insertGenres (sound : TablesSound unicode db) (rows : List Genre) (programId : ℕ) :
    TablesSound unicode
      (rows.foldl (fun db genre => db.insertGenre ⟨programId, genre⟩) db) := by
  induction rows generalizing db with
  | nil => exact sound
  | cons genre more ih => exact ih (sound.insertGenre _)

theorem insertProgram (sound : TablesSound unicode db) {row : ProgramRow}
    (freshId : ∀ old ∈ db.programs, old.id ≠ row.id)
    (freshGroup : ∀ old ∈ db.programs, old.group ≠ row.group)
    (normalized : row.metadata.IsNormalized unicode) :
    TablesSound unicode (db.insertProgram row) :=
  { sound with
    programIds := sound.programIds.append_fresh freshId
    programGroups := sound.programGroups.append_fresh freshGroup
    programTexts := fun program member => by
      rcases List.mem_append.mp member with old | new
      · exact sound.programTexts program old
      · rwa [List.mem_singleton.mp new]
    programIndex := sound.programIndex.insert row }

/-- Rewriting one program without changing its id or its group. -/
theorem updateProgram (sound : TablesSound unicode db) {old : ProgramRow}
    (member : old ∈ db.programs) {change : ProgramRow → ProgramRow}
    (sameId : (change old).id = old.id) (sameGroup : (change old).group = old.group)
    (normalized : (change old).metadata.IsNormalized unicode) :
    TablesSound unicode (db.updatePrograms (fun row => row.id = old.id) change) := by
  have only : ∀ row ∈ db.programs, decide (row.id = old.id) = true → row = old :=
    fun row present chosen => sound.programIds.eq_of_key present member (by simpa using chosen)
  refine
    { sound with
      programIds := sound.programIds.update fun row present chosen => ?_
      programGroups := sound.programGroups.update fun row present chosen => ?_
      programTexts := fun program present => ?_
      programIndex := sound.programIndex.update _ _ }
  · rw [only row present chosen, sameId]
  · rw [only row present chosen, sameGroup]
  · rcases Table.mem_update.mp present with ⟨kept, _⟩ | ⟨row, there, chosen, rfl⟩
    · exact sound.programTexts program kept
    · rwa [only row there chosen]

theorem deletePrograms (sound : TablesSound unicode db) (selected : ProgramRow → Bool) :
    TablesSound unicode (db.deletePrograms selected) := by
  unfold SearchDb.deletePrograms
  have cascaded := (sound.deleteGenres fun row =>
    db.programs.any fun program => selected program && program.id = row.programId).deleteCaptions
      fun row => db.programs.any fun program => selected program && program.id = row.programId
  exact
    { cascaded with
      programIds := sound.programIds.filter _
      programGroups := sound.programGroups.filter _
      programTexts := fun program member =>
        sound.programTexts program (List.mem_filter.mp member).1
      programIndex := sound.programIndex.delete selected }

end TablesSound

/-- The program of a file's group that `upsert_program` takes over. -/
def SearchDb.rival (db : SearchDb) (file : FileIdentity) : Option ProgramRow :=
  (db.groupProgram file.stream file.recordingStartedAt).filter fun row => row.path ≠ file.path

/-- The row of a path that lost its program to `winnerPath`. -/
def IndexedFileRow.demoted (row : IndexedFileRow) (winnerPath : String) : IndexedFileRow :=
  { row with
    programId := none
    status := .duplicate
    lastError := some
      ("superseded by (stream, recording_started_at) collision winner " ++ winnerPath) }

theorem demoteToDuplicate_eq (db : SearchDb) (path winnerPath : String) :
    db.demoteToDuplicate path winnerPath =
      db.updateIndexedFiles (fun row => row.path = path) (·.demoted winnerPath) := rfl

/-- The database after `upsert_program`, row by row. -/
structure Upserted (unicode : Unicode) (db : SearchDb) (file : FileIdentity)
    (eit : EitPresent) (id : ℕ) (after : SearchDb) : Prop where
  program : ∀ row, row ∈ after.programs ↔
    row = { file with id, metadata := programMetadata unicode eit } ∨
      row ∈ db.programs ∧ row.group ≠ file.group
  /-- The id is the one of the group's program, or in use by no program. -/
  id_iff : ∀ row ∈ db.programs, row.id = id ↔ row.group = file.group
  genre : ∀ row, row ∈ after.programGenres ↔
    row.programId = id ∧ row.genre ∈ eit.genres ∨ row ∈ db.programGenres ∧ row.programId ≠ id
  caption : ∀ row, row ∈ after.captionLines ↔
    row ∈ db.captionLines ∧ ∀ rival ∈ db.rival file, row.programId ≠ rival.id
  indexed : ∀ path, after.indexedFile path =
    if ∃ rival ∈ db.rival file, rival.path = path then
      (db.indexedFile path).map (·.demoted file.path)
    else db.indexedFile path

section UpsertProgram

variable {crates : Crates} {archiveRoot : String} {unicode : Unicode} {db : SearchDb}
  {file : FileIdentity} {eit : EitPresent}

theorem mem_groupProgram (sound : TablesSound unicode db) {row : ProgramRow} :
    db.groupProgram file.stream file.recordingStartedAt = some row ↔
      row ∈ db.programs ∧ row.group = file.group := by
  have key : (fun row : ProgramRow => row.stream = file.stream &&
      row.recordingStartedAt = file.recordingStartedAt) =
        fun row : ProgramRow => decide (row.group = file.group) := by
    funext row
    simp [FileIdentity.group, Prod.ext_iff]
  unfold SearchDb.groupProgram
  simp only [key]
  exact sound.programGroups.find?_eq_some_iff

theorem mem_rival (sound : TablesSound unicode db) {row : ProgramRow} :
    row ∈ db.rival file ↔
      row ∈ db.programs ∧ row.group = file.group ∧ row.path ≠ file.path := by
  unfold SearchDb.rival
  rw [Option.mem_def, Option.filter_eq_some_iff, mem_groupProgram sound]
  simp [and_assoc]

/-- Every program row says about its path what the path itself says. -/
def ProgramsIdentified (crates : Crates) (archiveRoot : String) (db : SearchDb) : Prop :=
  ∀ program ∈ db.programs, identify crates archiveRoot program.path =
    some program.toFileIdentity

/-- With a program in the group, its row is rewritten to the new path under its old id. -/
theorem upsertProgramRow_of_group (sound : TablesSound unicode db)
    (identified : ProgramsIdentified crates archiveRoot db)
    (own : identify crates archiveRoot file.path = some file) {old : ProgramRow}
    (member : old ∈ db.programs) (group : old.group = file.group)
    (metadata : ProgramMetadata) :
    ∃ change, db.upsertProgramRow file metadata =
        (old.id, db.updatePrograms (fun row => row.id = old.id) change) ∧
      change old = { file with id := old.id, metadata } := by
  unfold SearchDb.upsertProgramRow
  cases samePath : db.programs.find? fun row => row.path = file.path with
  | some row =>
      have present : row ∈ db.programs := List.mem_of_find?_eq_some samePath
      have path : row.path = file.path := by simpa using List.find?_some samePath
      have identity : row.toFileIdentity = file := by
        have known := identified row present
        rw [path, own] at known
        exact (Option.some.inj known).symm
      have same : row = old := sound.programGroups.eq_of_key present member (by
        rw [identity, group])
      subst same
      refine ⟨_, rfl, ?_⟩
      rw [← identity]
  | none =>
      have found := (mem_groupProgram sound).mpr ⟨member, group⟩
      simp only [found]
      refine ⟨_, rfl, ?_⟩
      obtain ⟨stream, started⟩ := Prod.ext_iff.mp group
      simp only [FileIdentity.group] at stream started
      simp only [stream, started]

/-- Without a program in the group, a row with a new id is inserted. -/
theorem upsertProgramRow_of_fresh (sound : TablesSound unicode db)
    (identified : ProgramsIdentified crates archiveRoot db)
    (own : identify crates archiveRoot file.path = some file)
    (fresh : ∀ row ∈ db.programs, row.group ≠ file.group) (metadata : ProgramMetadata) :
    db.upsertProgramRow file metadata =
      (Table.nextRowid (db.programs.map ProgramRow.id), db.insertProgram
        { file with id := Table.nextRowid (db.programs.map ProgramRow.id), metadata }) := by
  unfold SearchDb.upsertProgramRow
  have noPath : db.programs.find? (fun row => row.path = file.path) = none := by
    rw [List.find?_eq_none]
    intro row member
    rw [decide_eq_true_eq]
    intro path
    have known := identified row member
    rw [path, own] at known
    exact fresh row member (by rw [Option.some.inj known])
  have noGroup : db.groupProgram file.stream file.recordingStartedAt = none := by
    cases found : db.groupProgram file.stream file.recordingStartedAt with
    | none => rfl
    | some row =>
        obtain ⟨member, group⟩ := (mem_groupProgram sound).mp found
        exact absurd group (fresh row member)
  simp only [noPath, noGroup]

theorem mem_insertGenres {db : SearchDb} {programId : ℕ} (genres : List Genre)
    {row : GenreRow} :
    row ∈ (genres.foldl (fun db genre => db.insertGenre ⟨programId, genre⟩) db).programGenres ↔
      row ∈ db.programGenres ∨ row.programId = programId ∧ row.genre ∈ genres := by
  induction genres generalizing db with
  | nil => simp
  | cons genre more ih =>
      have here : row ∈ (db.insertGenre ⟨programId, genre⟩).programGenres ↔
          row ∈ db.programGenres ∨ row = ⟨programId, genre⟩ := by
        unfold SearchDb.insertGenre
        split
        · next present =>
            refine ⟨.inl, ?_⟩
            rintro (old | rfl)
            · exact old
            · exact present
        · simp
      rw [List.foldl_cons, ih, here]
      obtain ⟨rowProgram, rowGenre⟩ := row
      simp only [GenreRow.mk.injEq, List.mem_cons]
      tauto

theorem insertGenres_other (db : SearchDb) (programId : ℕ) (genres : List Genre) :
    (genres.foldl (fun db genre => db.insertGenre ⟨programId, genre⟩) db).programs =
        db.programs ∧
      (genres.foldl (fun db genre => db.insertGenre ⟨programId, genre⟩) db).captionLines =
        db.captionLines ∧
      (genres.foldl (fun db genre => db.insertGenre ⟨programId, genre⟩) db).indexedFiles =
        db.indexedFiles := by
  induction genres generalizing db with
  | nil => exact ⟨rfl, rfl, rfl⟩
  | cons genre more ih =>
      have here : (db.insertGenre ⟨programId, genre⟩).programs = db.programs ∧
          (db.insertGenre ⟨programId, genre⟩).captionLines = db.captionLines ∧
          (db.insertGenre ⟨programId, genre⟩).indexedFiles = db.indexedFiles := by
        unfold SearchDb.insertGenre
        split <;> exact ⟨rfl, rfl, rfl⟩
      obtain ⟨programs, captions, indexed⟩ := ih (db.insertGenre ⟨programId, genre⟩)
      exact ⟨programs.trans here.1, captions.trans here.2.1, indexed.trans here.2.2⟩

/-- What `upsert_program` does first: the rival of a file loses its captions and its program. -/
def SearchDb.withoutRival (db : SearchDb) (file : FileIdentity) : SearchDb :=
  match db.rival file with
  | some rival =>
      (db.deleteCaptions fun row => row.programId = rival.id).demoteToDuplicate rival.path
        file.path
  | none => db

theorem upsertProgram_eq (unicode : Unicode) (db : SearchDb) (file : FileIdentity)
    (eit : EitPresent) :
    db.upsertProgram unicode file eit =
      let upserted := (db.withoutRival file).upsertProgramRow file (programMetadata unicode eit)
      (upserted.1, eit.genres.foldl (fun db genre => db.insertGenre ⟨upserted.1, genre⟩)
        (upserted.2.deleteGenres fun row => row.programId = upserted.1)) := by
  unfold SearchDb.upsertProgram SearchDb.withoutRival SearchDb.rival
  cases db.groupProgram file.stream file.recordingStartedAt with
  | none => rfl
  | some existing => by_cases other : existing.path = file.path <;> simp [other, Option.filter]

@[simp] theorem programs_withoutRival (db : SearchDb) (file : FileIdentity) :
    (db.withoutRival file).programs = db.programs := by
  unfold SearchDb.withoutRival
  split <;> rfl

@[simp] theorem programGenres_withoutRival (db : SearchDb) (file : FileIdentity) :
    (db.withoutRival file).programGenres = db.programGenres := by
  unfold SearchDb.withoutRival
  split <;> rfl

theorem mem_captionLines_withoutRival {row : CaptionRow} :
    row ∈ (db.withoutRival file).captionLines ↔
      row ∈ db.captionLines ∧ ∀ rival ∈ db.rival file, row.programId ≠ rival.id := by
  unfold SearchDb.withoutRival
  cases db.rival file <;>
    simp [SearchDb.demoteToDuplicate, SearchDb.updateIndexedFiles, SearchDb.deleteCaptions]

theorem indexedFile_withoutRival (path : String) :
    (db.withoutRival file).indexedFile path =
      if ∃ rival ∈ db.rival file, rival.path = path then
        (db.indexedFile path).map (·.demoted file.path)
      else db.indexedFile path := by
  unfold SearchDb.withoutRival
  cases db.rival file with
  | none => simp
  | some rival =>
      have rows : (db.deleteCaptions fun row => row.programId = rival.id).indexedFile path =
          db.indexedFile path := rfl
      simp only [Option.mem_def, Option.some.injEq, exists_eq_left', demoteToDuplicate_eq]
      rw [SearchDb.indexedFile_updateIndexedFiles _ _ (·.demoted file.path) (fun _ => rfl), rows]
      cases found : db.indexedFile path with
      | none => simp
      | some row =>
          have own := SearchDb.path_of_indexedFile found
          by_cases same : rival.path = path
          · simp [own, same, IndexedFileRow.demoted]
          · simp [own, same, Ne.symm same]

theorem TablesSound.withoutRival (sound : TablesSound unicode db) (file : FileIdentity) :
    TablesSound unicode (db.withoutRival file) := by
  unfold SearchDb.withoutRival
  split
  · exact (sound.deleteCaptions _).of_indexedFiles _
  · exact sound

theorem isNormalized_programMetadata (unicode : Unicode) (eit : EitPresent) :
    (programMetadata unicode eit).IsNormalized unicode :=
  ⟨rfl, rfl⟩

/-- The row and the tables after the `INSERT INTO programs` of `upsert_program`. -/
theorem upsertProgramRow_spec (sound : TablesSound unicode db)
    (identified : ProgramsIdentified crates archiveRoot db)
    (own : identify crates archiveRoot file.path = some file) {metadata : ProgramMetadata}
    (normalized : metadata.IsNormalized unicode) :
    ∃ id after, db.upsertProgramRow file metadata = (id, after) ∧ TablesSound unicode after ∧
      (∀ row, row ∈ after.programs ↔
        row = { file with id, metadata } ∨ row ∈ db.programs ∧ row.group ≠ file.group) ∧
      (∀ row ∈ db.programs, row.id = id ↔ row.group = file.group) ∧
      after.programGenres = db.programGenres ∧ after.captionLines = db.captionLines ∧
      after.indexedFiles = db.indexedFiles := by
  by_cases exists' : ∃ old ∈ db.programs, old.group = file.group
  · obtain ⟨old, member, group⟩ := exists'
    obtain ⟨change, equal, changed⟩ :=
      upsertProgramRow_of_group sound identified own member group metadata
    have ids : ∀ row ∈ db.programs, row.id = old.id ↔ row.group = file.group := by
      intro row present
      constructor
      · intro same
        rw [sound.programIds.eq_of_key present member same, group]
      · intro same
        rw [sound.programGroups.eq_of_key present member (same.trans group.symm)]
    refine ⟨old.id, _, equal, sound.updateProgram member (by rw [changed])
      (by rw [changed]; exact group.symm) (by rw [changed]; exact normalized), fun row => ?_,
      ids, rfl, rfl, rfl⟩
    have listed : row ∈ (db.updatePrograms (fun row => row.id = old.id) change).programs ↔
        row ∈ db.programs ∧ row.id ≠ old.id ∨
          ∃ other ∈ db.programs, other.id = old.id ∧ row = change other := by
      simp only [SearchDb.updatePrograms, Table.mem_update, decide_eq_false_iff_not,
        decide_eq_true_eq, ne_eq]
    rw [listed]
    constructor
    · rintro (⟨present, other⟩ | ⟨other, present, same, rfl⟩)
      · exact .inr ⟨present, fun same => other ((ids row present).mpr same)⟩
      · rw [sound.programIds.eq_of_key present member same, changed]
        exact .inl rfl
    · rintro (rfl | ⟨present, other⟩)
      · exact .inr ⟨old, member, rfl, changed.symm⟩
      · exact .inl ⟨present, fun same => other ((ids row present).mp same)⟩
  · push Not at exists'
    have equal := upsertProgramRow_of_fresh sound identified own exists' metadata
    have unused : ∀ row ∈ db.programs, row.id ≠ Table.nextRowid (db.programs.map ProgramRow.id) :=
      fun row member => Table.ne_nextRowid member
    refine ⟨_, _, equal, sound.insertProgram unused exists' normalized, fun row => ?_,
      fun row member => iff_of_false (unused row member) (exists' row member), rfl, rfl, rfl⟩
    simp only [SearchDb.insertProgram, List.mem_append, List.mem_singleton]
    constructor
    · rintro (present | rfl)
      · exact .inr ⟨present, exists' row present⟩
      · exact .inl rfl
    · rintro (rfl | ⟨present, _⟩)
      · exact .inr rfl
      · exact .inl present

/-- `upsert_program` keeps the tables sound, and its rows are as described. -/
theorem upsertProgram_spec (sound : TablesSound unicode db)
    (identified : ProgramsIdentified crates archiveRoot db)
    (own : identify crates archiveRoot file.path = some file) (eit : EitPresent) :
    TablesSound unicode (db.upsertProgram unicode file eit).2 ∧
      Upserted unicode db file eit (db.upsertProgram unicode file eit).1
        (db.upsertProgram unicode file eit).2 := by
  have identified' : ProgramsIdentified crates archiveRoot (db.withoutRival file) := by
    unfold ProgramsIdentified
    rwa [programs_withoutRival]
  obtain ⟨id, after, equal, sound', programs, ids, genres, captions, indexed⟩ :=
    upsertProgramRow_spec (sound.withoutRival file) identified' own
      (isNormalized_programMetadata unicode eit)
  rw [programs_withoutRival] at ids
  simp only [programs_withoutRival] at programs
  rw [programGenres_withoutRival] at genres
  rw [upsertProgram_eq, equal]
  obtain ⟨samePrograms, sameCaptions, sameIndexed⟩ := insertGenres_other
    (after.deleteGenres fun row => row.programId = id) id eit.genres
  refine ⟨(sound'.deleteGenres _).insertGenres _ _, ?_, ids, ?_, ?_, ?_⟩
  · intro row
    rw [samePrograms]
    exact programs row
  · intro row
    rw [mem_insertGenres]
    simp only [SearchDb.deleteGenres, genres, List.mem_filter, Bool.not_eq_true',
      decide_eq_false_iff_not]
    tauto
  · intro row
    have same : (after.deleteGenres fun row => row.programId = id).captionLines =
        (db.withoutRival file).captionLines := captions
    rw [sameCaptions, same]
    exact mem_captionLines_withoutRival
  · intro path
    rw [← indexedFile_withoutRival]
    have same : (after.deleteGenres fun row => row.programId = id).indexedFiles =
        (db.withoutRival file).indexedFiles := indexed
    unfold SearchDb.indexedFile
    rw [sameIndexed, same]

theorem indexedFiles_upsertProgramRow (db : SearchDb) (file : FileIdentity)
    (metadata : ProgramMetadata) :
    (db.upsertProgramRow file metadata).2.indexedFiles = db.indexedFiles := by
  unfold SearchDb.upsertProgramRow
  split
  · rfl
  · split <;> rfl

theorem upsertProgram_files (files : Table.Unique IndexedFileRow.path db.indexedFiles)
    (file : FileIdentity) (eit : EitPresent) :
    Table.Unique IndexedFileRow.path (db.upsertProgram unicode file eit).2.indexedFiles := by
  have yielded : Table.Unique IndexedFileRow.path (db.withoutRival file).indexedFiles := by
    unfold SearchDb.withoutRival
    split
    · exact files.update fun _ _ _ => rfl
    · exact files
  have kept := indexedFiles_upsertProgramRow (db.withoutRival file) file
    (programMetadata unicode eit)
  rw [upsertProgram_eq]
  dsimp only
  rw [(insertGenres_other _ _ eit.genres).2.2]
  unfold SearchDb.deleteGenres
  rw [kept]
  exact yielded

end UpsertProgram

theorem indexedFile_upsertIndexedFile (db : SearchDb) (path : String) (programId : Option ℕ)
    (sizeBytes mtime indexedOffset indexedLines : ℕ) (other : String) :
    (db.upsertIndexedFile path programId sizeBytes mtime indexedOffset
        indexedLines).indexedFile other =
      if other = path then
        some ⟨path, programId, sizeBytes, mtime, indexedOffset, indexedLines, .ok, none⟩
      else db.indexedFile other := by
  have rows := SearchDb.indexedFile_upsertIndexedFiles db
    (fun old : IndexedFileRow =>
      { old with
        programId, sizeBytes, mtime, indexedOffset, indexedLines
        status := .ok, lastError := none })
    ⟨path, programId, sizeBytes, mtime, indexedOffset, indexedLines, .ok, none⟩
    (fun _ _ => rfl) other
  unfold SearchDb.upsertIndexedFile
  rw [rows]
  split
  · next own =>
      cases found : db.indexedFile other with
      | none => rfl
      | some old => simp [SearchDb.path_of_indexedFile found, own]
  · rfl

/-- A caption of a new line is appended. -/
theorem insertCaptionLine_of_fresh (unicode : Unicode) {db : SearchDb} {programId lineNo : ℕ}
    (fresh : ∀ row ∈ db.captionLines, row.key ≠ (programId, lineNo)) (byteOffset : ℕ)
    (caption : CaptionRecord) :
    db.insertCaptionLine unicode programId lineNo byteOffset caption =
      db.insertCaption
        { id := Table.nextRowid (db.captionLines.map CaptionRow.id)
          programId, lineNo, byteOffset, caption
          normalizedText := searchIndexText unicode caption.text } := by
  unfold SearchDb.insertCaptionLine
  have absent : (db.captionLines.any fun row => row.key = (programId, lineNo)) = false :=
    List.any_eq_false.mpr fun row member => by simpa using fresh row member
  simp only [absent, Bool.false_eq_true, ↓reduceIte]

theorem TablesSound.insertCaptionLine {unicode : Unicode} {db : SearchDb}
    (sound : TablesSound unicode db) {programId lineNo : ℕ}
    (fresh : ∀ row ∈ db.captionLines, row.key ≠ (programId, lineNo)) (byteOffset : ℕ)
    (caption : CaptionRecord) :
    TablesSound unicode
      (db.insertCaptionLine unicode programId lineNo byteOffset caption) := by
  rw [insertCaptionLine_of_fresh unicode fresh]
  exact sound.insertCaption (fun old member => Table.ne_nextRowid member) fresh rfl

/-- The path of the program that beats a new file to its group. -/
theorem markRecordingStartedAtCollisionLoser_cases (db : SearchDb) (file : FileIdentity)
    (sizeBytes mtime : ℕ) :
    (db.markRecordingStartedAtCollisionLoser file.stream file.recordingStartedAt file.path
          sizeBytes mtime = (false, db) ∧
        ∀ existing, db.groupProgram file.stream file.recordingStartedAt = some existing →
          existing.path ≤ file.path) ∨
      ∃ existing lastError,
        db.groupProgram file.stream file.recordingStartedAt = some existing ∧
          file.path < existing.path ∧
          db.markRecordingStartedAtCollisionLoser file.stream file.recordingStartedAt file.path
              sizeBytes mtime =
            (true, db.upsertIndexedFiles
              (fun old =>
                { old with
                  programId := none, sizeBytes, mtime, indexedOffset := 0, indexedLines := 0
                  status := .duplicate, lastError := some lastError })
              ⟨file.path, none, sizeBytes, mtime, 0, 0, .duplicate, some lastError⟩) := by
  unfold SearchDb.markRecordingStartedAtCollisionLoser
  cases found : db.groupProgram file.stream file.recordingStartedAt with
  | none => exact .inl ⟨rfl, by simp⟩
  | some existing =>
      by_cases wins : existing.path ≤ file.path
      · refine .inl ⟨by simp [wins], ?_⟩
        rintro _ ⟨⟩
        exact wins
      · refine .inr ⟨existing,
          "lost (stream, recording_started_at) collision to " ++ existing.path, rfl,
          lt_of_not_ge wins, ?_⟩
        simp only [wins, ↓reduceIte]

end AribcapDb
