import AribcapDb.Foundation.Table
import AribcapDb.Search.Record

/-! # The search database

The tables of the search schema, with their full-text indexes as bags of entries, and the table
operations the ingest statements are made of. Each operation carries out the triggers and the
foreign-key actions of the schema. -/

namespace AribcapDb

/-- What a path says about an archive file: the stream and the recording start are its collision
group. -/
structure FileIdentity where
  stream : String
  month : String
  filename : String
  path : String
  recordingStartedAt : String
  deriving DecidableEq, Repr

/-- The pair that the schema requires to be unique among programs. -/
def FileIdentity.group (file : FileIdentity) : String × String :=
  (file.stream, file.recordingStartedAt)

/-- The columns of a program that every present EIT replaces. -/
structure ProgramMetadata where
  startTime : Option String
  durationSec : Option Int64
  title : String
  description : String
  version : Option Int64
  serviceId : Option Int64
  transportStreamId : Option Int64
  originalNetworkId : Option Int64
  eventId : Option Int64
  normalizedTitle : String
  normalizedDescription : String
  deriving DecidableEq, Repr

structure ProgramRow extends FileIdentity where
  id : ℕ
  metadata : ProgramMetadata
  deriving DecidableEq, Repr

structure GenreRow where
  programId : ℕ
  genre : Genre
  deriving DecidableEq, Repr

structure CaptionRow where
  id : ℕ
  programId : ℕ
  lineNo : ℕ
  byteOffset : ℕ
  caption : CaptionRecord
  normalizedText : String
  deriving DecidableEq, Repr

inductive IndexStatus where
  | ok
  | error
  | duplicate
  deriving DecidableEq, Repr

structure IndexedFileRow where
  path : String
  programId : Option ℕ
  sizeBytes : ℕ
  mtime : ℕ
  indexedOffset : ℕ
  indexedLines : ℕ
  status : IndexStatus
  lastError : Option String
  deriving DecidableEq, Repr

/-- The tables; `captionFts` and `programFts` hold the indexed texts under their row ids. -/
structure SearchDb where
  programs : List ProgramRow
  programGenres : List GenreRow
  captionLines : List CaptionRow
  indexedFiles : List IndexedFileRow
  captionFts : Multiset (ℕ × String)
  programFts : Multiset (ℕ × String × String)

def programEntry (row : ProgramRow) : ℕ × String × String :=
  (row.id, row.metadata.normalizedTitle, row.metadata.normalizedDescription)

def captionEntry (row : CaptionRow) : ℕ × String := (row.id, row.normalizedText)

/-- The key of `UNIQUE(program_id, line_no)`. -/
def CaptionRow.key (row : CaptionRow) : ℕ × ℕ := (row.programId, row.lineNo)

namespace SearchDb

/-- The database right after the migrations. -/
def migrated : SearchDb := ⟨[], [], [], [], 0, 0⟩

section Operations

variable (db : SearchDb)

def insertProgram (row : ProgramRow) : SearchDb :=
  { db with
    programs := db.programs ++ [row]
    programFts := programEntry row ::ₘ db.programFts }

def updatePrograms (selected : ProgramRow → Bool) (change : ProgramRow → ProgramRow) :
    SearchDb :=
  { db with
    programs := Table.update selected change db.programs
    programFts :=
      Table.indexUpdate programEntry change (db.programs.filter selected) db.programFts }

def insertCaption (row : CaptionRow) : SearchDb :=
  { db with
    captionLines := db.captionLines ++ [row]
    captionFts := captionEntry row ::ₘ db.captionFts }

def updateCaptions (selected : CaptionRow → Bool) (change : CaptionRow → CaptionRow) :
    SearchDb :=
  { db with
    captionLines := Table.update selected change db.captionLines
    captionFts :=
      Table.indexUpdate captionEntry change (db.captionLines.filter selected) db.captionFts }

def deleteCaptions (selected : CaptionRow → Bool) : SearchDb :=
  { db with
    captionLines := db.captionLines.filter (!selected ·)
    captionFts :=
      Table.indexDelete captionEntry (db.captionLines.filter selected) db.captionFts }

def deleteGenres (selected : GenreRow → Bool) : SearchDb :=
  { db with programGenres := db.programGenres.filter (!selected ·) }

/-- `INSERT OR IGNORE` into `program_genres`, whose key is the whole row. -/
def insertGenre (row : GenreRow) : SearchDb :=
  if row ∈ db.programGenres then db
  else { db with programGenres := db.programGenres ++ [row] }

def updateIndexedFiles (selected : IndexedFileRow → Bool)
    (change : IndexedFileRow → IndexedFileRow) : SearchDb :=
  { db with indexedFiles := Table.update selected change db.indexedFiles }

/-- Insert a row into `indexed_files`, or apply `change` to the row with its path. -/
def upsertIndexedFiles (change : IndexedFileRow → IndexedFileRow) (row : IndexedFileRow) :
    SearchDb :=
  { db with
    indexedFiles := Table.upsert (fun old => old.path = row.path) change row db.indexedFiles }

def deleteIndexedFiles (selected : IndexedFileRow → Bool) : SearchDb :=
  { db with indexedFiles := db.indexedFiles.filter (!selected ·) }

/-- Delete programs. Genres and captions go with them; `indexed_files` loses the reference. -/
def deletePrograms (selected : ProgramRow → Bool) : SearchDb :=
  let gone (id : ℕ) : Bool := db.programs.any fun row => selected row && row.id = id
  let cascaded := (db.deleteGenres fun row => gone row.programId).deleteCaptions
    fun row => gone row.programId
  let released := cascaded.updateIndexedFiles (fun row => row.programId.any gone)
    fun row => { row with programId := none }
  { released with
    programs := db.programs.filter (!selected ·)
    programFts :=
      Table.indexDelete programEntry (db.programs.filter selected) db.programFts }

end Operations

/-- The row of `indexed_files` for a path. -/
def indexedFile (db : SearchDb) (path : String) : Option IndexedFileRow :=
  db.indexedFiles.find? fun row => row.path = path

/-- The program of a collision group. -/
def groupProgram (db : SearchDb) (stream recordingStartedAt : String) : Option ProgramRow :=
  db.programs.find? fun row =>
    row.stream = stream && row.recordingStartedAt = recordingStartedAt

/-- The rows of `indexed_files` after rewriting some of them without changing a path. -/
theorem find?_update_path (rows : List IndexedFileRow) (selected : IndexedFileRow → Bool)
    (change : IndexedFileRow → IndexedFileRow)
    (same : ∀ row, selected row = true → (change row).path = row.path) (path : String) :
    (Table.update selected change rows).find? (fun row => row.path = path) =
      (rows.find? fun row => row.path = path).map fun row =>
        if selected row then change row else row := by
  unfold Table.update
  rw [List.find?_map]
  have keys : ((fun row : IndexedFileRow => decide (row.path = path)) ∘ fun row =>
      if selected row then change row else row) = fun row => decide (row.path = path) := by
    funext row
    simp only [Function.comp_apply]
    split
    · next chosen => rw [same row chosen]
    · rfl
  rw [keys]

theorem indexedFile_updateIndexedFiles (db : SearchDb) (selected : IndexedFileRow → Bool)
    (change : IndexedFileRow → IndexedFileRow) (same : ∀ row, (change row).path = row.path)
    (path : String) :
    (db.updateIndexedFiles selected change).indexedFile path =
      (db.indexedFile path).map fun row => if selected row then change row else row :=
  find?_update_path db.indexedFiles selected change (fun row _ => same row) path

theorem path_of_indexedFile {db : SearchDb} {path : String} {row : IndexedFileRow}
    (found : db.indexedFile path = some row) : row.path = path := by
  simpa using List.find?_some found

/-- An upsert changes the row of its own path only. -/
theorem indexedFile_upsertIndexedFiles (db : SearchDb)
    (change : IndexedFileRow → IndexedFileRow) (row : IndexedFileRow)
    (same : ∀ old, old.path = row.path → (change old).path = old.path) (path : String) :
    (db.upsertIndexedFiles change row).indexedFile path =
      if path = row.path then
        some ((db.indexedFile path).elim row change)
      else db.indexedFile path := by
  unfold upsertIndexedFiles indexedFile Table.upsert
  by_cases conflict : db.indexedFiles.any (fun old => old.path = row.path)
  · simp only [conflict, ↓reduceIte]
    rw [find?_update_path _ _ _ fun old chosen => same old (by simpa using chosen)]
    split
    · next own =>
        subst own
        cases found : db.indexedFiles.find? (fun old => old.path = row.path) with
        | none =>
            obtain ⟨old, member, equal⟩ := List.any_eq_true.mp conflict
            exact absurd equal (List.find?_eq_none.mp found old member)
        | some old =>
            have equal : old.path = row.path := by simpa using List.find?_some found
            simp [equal]
    · next other =>
        cases found : db.indexedFiles.find? (fun old => old.path = path) with
        | none => rfl
        | some old =>
            have equal : old.path = path := by simpa using List.find?_some found
            simp [equal, other]
  · simp only [conflict, Bool.false_eq_true, ↓reduceIte]
    rw [List.find?_append]
    split
    · next own =>
        subst own
        have absent : db.indexedFiles.find? (fun old => old.path = row.path) = none := by
          rw [List.find?_eq_none]
          intro old member
          exact List.any_eq_false.mp (Bool.eq_false_iff.mpr conflict) old member
        simp [absent]
    · next other => simp [Ne.symm other]

theorem indexedFile_deleteIndexedFiles (db : SearchDb) (deleted path : String) :
    (db.deleteIndexedFiles fun row => row.path = deleted).indexedFile path =
      if path = deleted then none else db.indexedFile path := by
  unfold deleteIndexedFiles indexedFile
  rw [List.find?_filter]
  split
  · next own =>
      rw [List.find?_eq_none]
      intro row _
      simp [own]
  · next other =>
      congr 1
      funext row
      by_cases equal : row.path = path <;> simp [equal, other]

section DeletePrograms

variable {db : SearchDb} {selected : ProgramRow → Bool}

theorem mem_programs_deletePrograms {row : ProgramRow} :
    row ∈ (db.deletePrograms selected).programs ↔ row ∈ db.programs ∧ selected row = false := by
  simp [deletePrograms]

theorem mem_programGenres_deletePrograms {row : GenreRow} :
    row ∈ (db.deletePrograms selected).programGenres ↔ row ∈ db.programGenres ∧
      ∀ program ∈ db.programs, selected program = true → program.id ≠ row.programId := by
  simp [deletePrograms, updateIndexedFiles, deleteCaptions, deleteGenres]

theorem mem_captionLines_deletePrograms {row : CaptionRow} :
    row ∈ (db.deletePrograms selected).captionLines ↔ row ∈ db.captionLines ∧
      ∀ program ∈ db.programs, selected program = true → program.id ≠ row.programId := by
  simp [deletePrograms, updateIndexedFiles, deleteCaptions, deleteGenres]

theorem indexedFile_deletePrograms (path : String) :
    (db.deletePrograms selected).indexedFile path =
      (db.indexedFile path).map fun row =>
        if row.programId.any fun id =>
            db.programs.any fun program => selected program && program.id = id
        then { row with programId := none } else row :=
  indexedFile_updateIndexedFiles
    ((db.deleteGenres fun row => db.programs.any fun program =>
      selected program && program.id = row.programId).deleteCaptions
        fun row => db.programs.any fun program =>
          selected program && program.id = row.programId)
    _ (fun row => { row with programId := none }) (fun _ => rfl) path

end DeletePrograms

end SearchDb

end AribcapDb
