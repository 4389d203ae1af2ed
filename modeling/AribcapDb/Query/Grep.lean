import AribcapDb.Query.Request
import AribcapDb.Search.Mirror

/-! # Searching without an index

Reading the files of the archive from their beginnings and looking at every line gives the answer
of every search, over whatever the archive and its index have gone through
(`search_is_grep`). The index adds the numbers of programs and lines, and nothing else. -/

namespace AribcapDb

/-- A program as it is read from its file, under the number that the index gives it. -/
structure ReadProgram where
  id : ℕ
  file : FileIdentity
  index : ProgramIndex
  deriving DecidableEq, Repr

/-- A hit without its number in the index. -/
structure FoundLine where
  lineNo : ℕ
  time : Option String
  text : String
  deriving DecidableEq, Repr

/-- An item of a response without its number in the index. -/
structure FoundProgram where
  stream : String
  recordingStartedAt : String
  startTime : Option String
  title : String
  description : String
  path : String
  hits : List FoundLine
  deriving DecidableEq, Repr

def SearchResultItem.found (item : SearchResultItem) : FoundProgram :=
  { stream := item.stream
    recordingStartedAt := item.recordingStartedAt
    startTime := item.startTime
    title := item.title
    description := item.description
    path := item.path
    hits := item.hits.map fun hit => ⟨hit.lineNo, hit.time, hit.text⟩ }

namespace ReadProgram

variable (unicode : Unicode) (read : ReadProgram)

/-- The row of the program in the index. -/
def row : ProgramRow :=
  { read.file with id := read.id, metadata := programMetadata unicode read.index.eit }

/-- The newest recordings come first. -/
def key : (String ×ₗ ℕ)ᵒᵈ :=
  OrderDual.toDual (toLex (read.file.recordingStartedAt, read.id))

/-- The filter admits the program, with the genres of its last present EIT. -/
def Admits (filter : SearchFilter) : Prop :=
  (∀ stream ∈ filter.stream, read.file.stream = stream) ∧
    (∀ bound ∈ filter.from', bound ≤ read.file.recordingStartedAt) ∧
      (∀ bound ∈ filter.to', read.file.recordingStartedAt ≤ bound) ∧
        ∀ genre ∈ filter.genre, ∃ own ∈ read.index.eit.genres,
          own.contentNibbleLevel1 = genre.level1 ∧
            ∀ level ∈ genre.level2, own.contentNibbleLevel2 = level

instance (filter : SearchFilter) : Decidable (read.Admits filter) :=
  inferInstanceAs (Decidable (_ ∧ _ ∧ _ ∧ _))

/-- The captions that a search is about, as they follow each other in the file. -/
def captions (mode : SearchMode) : List IndexedCaption :=
  read.index.captions.filter fun caption =>
    mode.lineExpression.any fun expression => expression.InText unicode caption.caption.text

/-- A program is one that a search is about. -/
def Selects (mode : SearchMode) : Prop :=
  match mode with
  | .general expression =>
      read.captions unicode mode ≠ [] ∨ SearchMode.InMetadata unicode expression (read.row unicode)
  | .program expression => SearchMode.InMetadata unicode expression (read.row unicode)
  | .line _ => read.captions unicode mode ≠ []
  | .combined expression _ =>
      SearchMode.InMetadata unicode expression (read.row unicode) ∧
        read.captions unicode mode ≠ []

instance (mode : SearchMode) : Decidable (read.Selects unicode mode) :=
  match mode with
  | .general _ => inferInstanceAs (Decidable (_ ∨ _))
  | .program _ => inferInstanceAs (Decidable (SearchMode.InMetadata ..))
  | .line _ => inferInstanceAs (Decidable (_ ≠ _))
  | .combined _ _ => inferInstanceAs (Decidable (_ ∧ _))

/-- The program with some of its captions. -/
def found (urls : UrlEncoding) (captions : List IndexedCaption) : FoundProgram :=
  let row := read.row unicode
  { stream := row.stream
    recordingStartedAt := row.recordingStartedAt
    startTime := row.metadata.startTime
    title := row.metadata.title
    description := row.metadata.description
    path := programApiPath urls row.stream row.recordingStartedAt
    hits := captions.map fun caption =>
      ⟨caption.lineNo, caption.caption.time, caption.caption.text⟩ }

end ReadProgram

/-- Look at every line of every program. -/
def grep (unicode : Unicode) (urls : UrlEncoding) (asked : AskedSearch)
    (programs : List ReadProgram) : List FoundProgram :=
  let selected := programs.filter fun read =>
    decide (read.Admits asked.filter) && decide (read.Selects unicode asked.mode)
  ((Sql.orderBy ReadProgram.key selected).take asked.limit.toNat).map fun read =>
    read.found unicode urls ((read.captions unicode asked.mode).take asked.innerHits.toNat)

/-- Read the files of the programs that the index has, as far as they were read. -/
def readPrograms (crates : Crates) (archiveRoot : String) (db : SearchDb)
    (seen : String → List UInt8) : List ReadProgram :=
  db.programs.filterMap fun program => do
    let file ← identify crates archiveRoot program.path
    let index ← (fileIndex crates.serde (seen program.path)).program
    pure ⟨program.id, file, index⟩

/-- What the index has read of each file: its beginning up to the position in its row, unless its
path was reused while it had the row. The files in which it has read a present EIT are those of its
programs, except for files that have lost their group to another one. -/
structure ArchiveHistory.HasRead (crates : Crates) (state : ArchiveHistory)
    (seen : String → List UInt8) : Prop where
  onDisk : ∀ path content, state.files path = some (.file content) → state.last path = content
  read : ∀ path row, path ∉ state.reused → state.db.indexedFile path = some row →
    row.status ≠ .duplicate → seen path = (state.last path).take row.indexedOffset
  programs : ∀ path row, state.db.indexedFile path = some row → row.status ≠ .duplicate →
    ((∃ program ∈ state.db.programs, program.path = path) ↔
      hasPresentEit crates.serde (seen path) = true)

/-- The captions of a file follow each other. -/
structure FileIndex.Ordered (index : FileIndex) : Prop where
  sorted : ∀ program ∈ index.program,
    program.captions.Pairwise fun first second => first.lineNo < second.lineNo
  bounded : ∀ program ∈ index.program, ∀ caption ∈ program.captions,
    caption.lineNo ≤ index.lines

namespace FileIndex.Ordered

variable {index : FileIndex}

theorem of_none (none : index.program = none) : index.Ordered := by
  constructor
  · intro program member
    rw [none] at member
    cases member
  · intro program member
    rw [none] at member
    cases member

theorem read (ordered : index.Ordered) (serde : SerdeJson) (line : List UInt8) :
    (index.read serde line).Ordered := by
  unfold FileIndex.read
  cases lineRecord serde line with
  | skipped =>
      exact ⟨ordered.sorted, fun program member caption inside =>
        (ordered.bounded program member caption inside).trans (Nat.le_succ _)⟩
  | eit eit =>
      cases known : index.program with
      | none =>
          refine ⟨fun program member => ?_, fun program member caption inside => ?_⟩
          · obtain rfl := Option.some.inj member
            exact List.Pairwise.nil
          · obtain rfl := Option.some.inj member
            cases inside
      | some own =>
          refine ⟨fun program member => ?_, fun program member caption inside => ?_⟩
          · obtain rfl := Option.some.inj member
            exact ordered.sorted own known
          · obtain rfl := Option.some.inj member
            exact (ordered.bounded own known caption inside).trans (Nat.le_succ _)
  | caption caption =>
      cases known : index.program with
      | none => exact .of_none rfl
      | some own =>
          refine ⟨fun program member => ?_, fun program member other inside => ?_⟩
          · obtain rfl := Option.some.inj member
            refine List.pairwise_append.mpr ⟨ordered.sorted own known,
              List.pairwise_singleton _ _, fun earlier before later last => ?_⟩
            rw [List.mem_singleton.mp last]
            exact Nat.lt_succ_of_le (ordered.bounded own known earlier before)
          · obtain rfl := Option.some.inj member
            rcases List.mem_append.mp inside with before | last
            · exact (ordered.bounded own known other before).trans (Nat.le_succ _)
            · rw [List.mem_singleton.mp last]

theorem fileIndex (serde : SerdeJson) (content : List UInt8) :
    (AribcapDb.fileIndex serde content).Ordered := by
  unfold AribcapDb.fileIndex
  have start : FileIndex.empty.Ordered := .of_none rfl
  generalize FileIndex.empty = index at start
  induction Framing.frames newline content generalizing index with
  | nil => exact start
  | cons line lines ih =>
      rw [List.foldl_cons]
      exact ih _ (start.read serde line)

end FileIndex.Ordered

section Reading

variable {crates : Crates} {archiveRoot : String} {db : SearchDb} {read : ReadProgram}
  {unicode : Unicode}

/-- The captions that a search is about are the ones that reading finds. -/
theorem captions_row (shown : ShowsIndex unicode db (read.row unicode) read.index)
    (sorted : read.index.captions.Pairwise fun first second => first.lineNo < second.lineNo)
    (mode : SearchMode) :
    (mode.captions unicode db (read.row unicode)).map CaptionRow.indexed =
      read.captions unicode mode := by
  have ordered : (db.captionsOf read.id).Pairwise fun first second =>
      first.lineNo < second.lineNo := by
    rw [← shown.captions, List.pairwise_map] at sorted
    exact sorted
  have selected : db.captionLines.filter (fun row => row.programId = (read.row unicode).id &&
      mode.lineExpression.any fun expression => expression.InText unicode row.caption.text) =
        (db.captionsOf read.id).filter fun row =>
          mode.lineExpression.any fun expression => expression.InText unicode row.caption.text := by
    rw [SearchDb.captionsOf, List.filter_filter]
    apply List.filter_congr
    intro row _
    exact Bool.and_comm _ _
  have alone : Sql.orderBy CaptionRow.lineNo ((db.captionsOf read.id).filter fun row =>
      mode.lineExpression.any fun expression => expression.InText unicode row.caption.text) =
        (db.captionsOf read.id).filter fun row =>
          mode.lineExpression.any fun expression => expression.InText unicode row.caption.text := by
    refine (Sql.eq_orderBy_of_pairwise (ordered.filter _) ?_ fun row => Iff.rfl).symm
    exact List.pairwise_map.mpr ((ordered.filter _).imp fun less => ne_of_lt less)
  have same : (db.captionsOf read.id).map CaptionRow.indexed = read.index.captions :=
    shown.captions
  rw [SearchMode.captions, selected, alone, ReadProgram.captions, ← same, List.filter_map]
  rfl

theorem admits_row (shown : ShowsIndex unicode db (read.row unicode) read.index)
    (filter : SearchFilter) : db.Admits filter (read.row unicode) ↔ read.Admits filter := by
  refine and_congr_right fun _ => and_congr_right fun _ => and_congr_right fun _ =>
    forall_congr' fun genre => forall_congr' fun _ => ?_
  constructor
  · rintro ⟨row, member, own, nibbles⟩
    refine ⟨row.genre, (shown.genres row.genre).mp ?_, nibbles⟩
    rw [← own]
    exact member
  · rintro ⟨own, member, nibbles⟩
    exact ⟨_, (shown.genres own).mpr member, rfl, nibbles⟩

theorem selects_row {mode : SearchMode}
    (captions : (mode.captions unicode db (read.row unicode)).map CaptionRow.indexed =
      read.captions unicode mode) :
    mode.Selects unicode db (read.row unicode) ↔ read.Selects unicode mode := by
  have some : mode.captions unicode db (read.row unicode) ≠ [] ↔
      read.captions unicode mode ≠ [] := by
    rw [← captions, Ne, Ne, List.map_eq_nil_iff]
  cases mode with
  | general expression => exact or_congr_left some
  | program expression => exact Iff.rfl
  | line expression => exact some
  | combined expression line => exact and_congr_right fun _ => some

/-- A naive search of the index finds what reading the files finds. -/
theorem naiveAnswer_eq_grep (urls : UrlEncoding) {reads : List ReadProgram}
    (rows : db.programs = reads.map (ReadProgram.row unicode))
    (shown : ∀ read ∈ reads, ShowsIndex unicode db (read.row unicode) read.index)
    (sorted : ∀ read ∈ reads,
      read.index.captions.Pairwise fun first second => first.lineNo < second.lineNo)
    (asked : AskedSearch) :
    ((naiveAnswer unicode db asked).map (searchResultItem urls)).map SearchResultItem.found =
      grep unicode urls asked reads := by
  have selected : (db.programs.filter fun program =>
      decide (db.Admits asked.filter program) && decide (asked.mode.Selects unicode db program)) =
        (reads.filter fun read => decide (read.Admits asked.filter) &&
          decide (read.Selects unicode asked.mode)).map (ReadProgram.row unicode) := by
    rw [rows, List.filter_map]
    refine congrArg (List.map _) (List.filter_congr fun read member => ?_)
    have captions := captions_row (shown read member) (sorted read member) asked.mode
    rw [Function.comp_apply, decide_eq_decide.mpr (admits_row (shown read member) asked.filter),
      decide_eq_decide.mpr (selects_row captions)]
  rw [naiveAnswer, selected, Sql.orderBy_map, ← List.map_take, List.map_map, List.map_map,
    List.map_map, grep]
  apply List.map_congr_left
  intro read first
  have member : read ∈ reads :=
    (List.mem_filter.mp ((Sql.mem_orderBy _ _).mp (List.mem_of_mem_take first))).1
  have captions := captions_row (shown read member) (sorted read member) asked.mode
  simp only [Function.comp_apply, ← captions, ← List.map_take, SearchResultItem.found,
    searchResultItem, SearchDb.searchProgram, ReadProgram.found, List.map_map]
  rfl

/-- The programs of the index are those that are read. -/
theorem readPrograms_spec {seen : String → List UInt8} (formed : WellFormed crates archiveRoot db)
    (mirrors : Mirrors crates db seen) :
    db.programs = (readPrograms crates archiveRoot db seen).map (ReadProgram.row crates.unicode) ∧
      ∀ read ∈ readPrograms crates archiveRoot db seen,
        ShowsIndex crates.unicode db (read.row crates.unicode) read.index ∧
          ∃ content, (fileIndex crates.serde content).program = some read.index := by
  have each {program : ProgramRow} (member : program ∈ db.programs) : ∃ file index,
      identify crates archiveRoot program.path = some file ∧
        (fileIndex crates.serde (seen program.path)).program = some index ∧
          ShowsIndex crates.unicode db program index ∧
            ReadProgram.row crates.unicode ⟨program.id, file, index⟩ = program := by
    obtain ⟨index, indexed, shown⟩ := mirrors.programs program member
    refine ⟨_, index, formed.linked.identified program member, indexed, shown, ?_⟩
    rw [ReadProgram.row, ← shown.metadata]
  constructor
  · rw [readPrograms, List.map_filterMap]
    have own : db.programs.filterMap some = db.programs := List.filterMap_some
    refine own.symm.trans (List.filterMap_congr fun program member => ?_)
    obtain ⟨file, index, identified, indexed, _, same⟩ := each member
    simp [identified, indexed, same]
  · intro read member
    obtain ⟨program, present, made⟩ := List.mem_filterMap.mp member
    obtain ⟨file, index, identified, indexed, shown, same⟩ := each present
    simp only [identified, indexed, Option.bind_eq_bind, Option.bind_some, Option.pure_def,
      Option.some.injEq] at made
    subst made
    exact ⟨same ▸ shown, _, indexed⟩

end Reading

namespace ArchiveHistory

variable {crates : Crates} {archiveRoot : String} {state : ArchiveHistory}

/-- The index of a history is one that the indexer commits. -/
theorem indexReachable (reachable : Transition.Reachable Start (Step crates archiveRoot) state) :
    IndexReachable crates archiveRoot state.db := by
  induction reachable with
  | initial started => exact .initial started.1
  | next _ stepped ih =>
      cases stepped with
      | create _ _ _ => exact ih
      | grow _ _ _ _ => exact ih
      | delete _ => exact ih
      | visit path metadata content db _ ran => exact ih.next (.ingest _ _ ran)
      | cleanup tryExists => exact ih.next (.cleanup _ tryExists)

/-- The beginning of a file up to the position of its row has the lines that were read. -/
theorem ShowsReads.hasRead {seen : String → List UInt8}
    (reads : ShowsReads crates archiveRoot state seen) :
    ∃ lines, Mirrors crates state.db lines ∧ state.HasRead crates lines := by
  let lines (path : String) : List UInt8 :=
    (seen path).take (Framing.framedLength newline (seen path))
  have index (path : String) :
      fileIndex crates.serde (lines path) = fileIndex crates.serde (seen path) := by
    have resumed := fileIndex_resume crates.serde (seen path) []
    rwa [List.append_nil, Framing.frames_nil, List.foldl_nil] at resumed
  have rows {path : String} {row : IndexedFileRow}
      (found : state.db.indexedFile path = some row) (status : row.status ≠ .duplicate) :
      Summarizes crates.serde row (lines path) := by
    have summary := reads.mirrors.rows path row found status
    have cut := summary.of_length List.prefix_rfl
    rwa [summary.offset] at cut
  refine ⟨lines, ⟨fun path row => rows, fun program member => ?_⟩, reads.last,
    fun path row fresh found status => ?_, fun path row found status => ?_⟩
  · obtain ⟨content, read, shown⟩ := reads.mirrors.programs program member
    exact ⟨content, (congrArg FileIndex.program (index _)).trans read, shown⟩
  · have offset := (reads.mirrors.rows path row found status).offset
    obtain ⟨more, last⟩ := reads.inside path row fresh found status
    rw [offset, ← last, List.take_append_of_le_length (Framing.framedLength_le newline _)]
  · rw [← (rows found status).program]
    constructor
    · rintro ⟨program, member, rfl⟩
      obtain ⟨owner, there, known⟩ := reads.formed.linked.owner program member
      rw [found, Option.some.injEq] at there
      rw [there, known]
      rfl
    · intro some
      obtain ⟨id, known⟩ := Option.isSome_iff_exists.mp some
      obtain ⟨program, member, _, path⟩ := reads.formed.linked.points path row id found known
      exact ⟨program, member, path⟩

end ArchiveHistory

/-- Over whatever the archive and its index have gone through, a search finds what reading the
files finds. -/
theorem search_is_grep {service : QueryService} {τ : Type} [DecidableEq τ]
    (unicode61 : Unicode61 service.crates.unicode τ)
    (quotes : service.crates.unicode.isAlphanumeric '"' = false)
    (ready : service.searchDbReady = true) {state : ArchiveHistory}
    (reachable : Transition.Reachable ArchiveHistory.Start
      (ArchiveHistory.Step service.crates (archiveRoot service.dataDir)) state)
    (shown : service.database = some state.db) :
    ∃ seen, state.HasRead service.crates seen ∧ ∀ query asked,
      askedSearch service.crates service.dates query = .ok asked →
        ∃ items, service.search unicode61 query = .ok items ∧
          items.map SearchResultItem.found =
            grep service.crates.unicode service.urls asked
              (readPrograms service.crates (archiveRoot service.dataDir) state.db seen) := by
  obtain ⟨seen, reads⟩ := ArchiveHistory.ShowsReads.run reachable
  obtain ⟨known, mirrors, read⟩ := reads.hasRead
  obtain ⟨rows, programs⟩ := readPrograms_spec reads.formed mirrors
  refine ⟨known, read, fun query asked accepted => ⟨_, search_of_accepted unicode61 quotes ready
    shown (ArchiveHistory.indexReachable reachable) accepted, ?_⟩⟩
  refine naiveAnswer_eq_grep service.urls rows (fun read member => (programs read member).1)
    (fun read member => ?_) asked
  obtain ⟨content, indexed⟩ := (programs read member).2
  exact (FileIndex.Ordered.fileIndex service.crates.serde content).sorted _ indexed

/-- One file is created, visited and searched. -/
theorem search_is_grep_sample : ∃ (state : ArchiveHistory) (seen : String → List UInt8),
    state.db.programs.map (fun row => row.path) = [Sample.newsPath] ∧
      state.HasRead Sample.crates seen ∧ ∀ query asked,
        askedSearch Sample.crates .padded query = .ok asked →
          ∃ items, (Sample.oneFileService state.db).search Sample.unicode61 query = .ok items ∧
            items.map SearchResultItem.found =
              grep Sample.crates.unicode Sample.urls asked
                (readPrograms Sample.crates (archiveRoot "data") state.db seen) := by
  have evaluates : (ingestFile Sample.crates "data/archive" .migrated Sample.newsPath
      (Sample.access Sample.newsFile)).toOption.map (fun db =>
        db.programs.map fun row => row.path) = some [Sample.newsPath] := by
    decide +kernel
  obtain ⟨db, ran, paths⟩ := exists_ok_of_toOption_map evaluates
  let files : FileSystem :=
    Function.update (fun _ => none) Sample.newsPath (some (.file Sample.newsFile))
  have present : files Sample.newsPath = some (.file Sample.newsFile) := Function.update_self ..
  have start : Transition.Reachable ArchiveHistory.Start
      (ArchiveHistory.Step Sample.crates (archiveRoot "data"))
      ⟨fun _ => none, .migrated, ∅, fun _ => []⟩ :=
    .initial ⟨rfl, rfl, nofun⟩
  have created := start.next (.create Sample.newsPath Sample.newsFile rfl)
  have visited := created.next (.visit Sample.newsPath _ Sample.newsFile db present ran)
  have quotes : Sample.crates.unicode.isAlphanumeric '"' = false := rfl
  have ready : (Sample.oneFileService db).searchDbReady = true := rfl
  have shown : (Sample.oneFileService db).database = some db := rfl
  obtain ⟨seen, read, found⟩ := search_is_grep Sample.unicode61 quotes ready visited shown
  exact ⟨_, seen, paths, read, found⟩

end AribcapDb
