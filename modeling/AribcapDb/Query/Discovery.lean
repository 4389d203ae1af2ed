import AribcapDb.Archive.Access
import AribcapDb.Archive.Expiry
import AribcapDb.Foundation.FixedWidth
import AribcapDb.Foundation.PercentEncoding
import AribcapDb.Foundation.Sql
import AribcapDb.Query.Service

/-! # Walking the archive through the service

A client lists the streams, the months of each stream and the programs of each month, and follows
the link of each program. The first two lists come from the directories of the archive and the
third one from the search database, but the client comes to every indexed program of a month that
is there, stream by stream and in the order of the recordings (`walk_eq`). -/

namespace AribcapDb

open FileTree

/-- `urlencoding::encode`. -/
structure UrlEncoding where
  encode : String → String
  encode_eq : ∀ text, utf8Bytes (encode text) = PercentEncoding.encode (utf8Bytes text)

/-- A percent-decoded segment of a request path; what is no UTF-8 is rejected. -/
def decodeSegment (segment : List UInt8) : Option String :=
  String.fromUTF8? ⟨(PercentEncoding.decode segment).toArray⟩

/-- The route `/api/programs/{stream}/{recording_started_at}` with its `Path` extractor. A segment
matches between slashes and is percent-decoded. -/
structure ProgramRoute where
  extract : String → Option (String × String)
  extract_eq : ∀ (path : String) (stream recordingStartedAt : List UInt8),
    utf8Bytes path = utf8Bytes "/api/programs/" ++ (stream ++ 47 :: recordingStartedAt) →
    stream ≠ [] → recordingStartedAt ≠ [] →
    (∀ byte ∈ stream ++ recordingStartedAt,
      byte = 37 ∨ PercentEncoding.isUnreserved byte = true) →
    extract path =
      (decodeSegment stream).bind fun first =>
        (decodeSegment recordingStartedAt).map fun second => (first, second)

/-- `program_api_path`. -/
def programApiPath (urls : UrlEncoding) (stream recordingStartedAt : String) : String :=
  "/api/programs/" ++ (urls.encode stream ++ "/" ++ urls.encode recordingStartedAt)

/-- `archive::ProgramEntry`. -/
structure ProgramEntry where
  stream : String
  month : String
  filename : String
  sizeBytes : ℕ
  path : String
  deriving DecidableEq, Repr

/-- What `list_programs` makes of an indexed program. -/
def listedProgram (urls : UrlEncoding) (program : IndexedProgram) : ProgramEntry :=
  { path := programApiPath urls program.stream program.recordingStartedAt
    stream := program.stream
    month := program.month
    filename := program.filename
    sizeBytes := program.sizeBytes }

/-- An `ArchiveQueryService`, with the database that its connections show, when there is one, and
what the system answers. -/
structure QueryService where
  crates : Crates
  dates : DateParser
  urls : UrlEncoding
  dataDir : String
  searchDbReady : Bool
  database : Option SearchDb
  answers : FsAnswers

namespace QueryService

variable (service : QueryService)

/-- `ArchiveQueryService::list_streams`. -/
def listStreams : Except QueryServiceError (List String) := do
  requireReady service.searchDbReady
  (service.answers.listStreams service.dataDir).result.mapError .ofIoError

/-- `ArchiveQueryService::list_months`. -/
def listMonths (stream : String) : Except QueryServiceError (List String) := do
  requireReady service.searchDbReady
  (validateStreamComponent service.crates.sanitizeFilename stream).mapError .ofIoError
  (service.answers.listMonths service.crates.sanitizeFilename service.dates service.dataDir
    stream).result.mapError .ofIoError

/-- `ArchiveQueryService::list_programs`. -/
def listPrograms (stream month : String) : Except QueryServiceError (List ProgramEntry) := do
  requireReady service.searchDbReady
  (validateStreamComponent service.crates.sanitizeFilename stream).mapError .ofIoError
  (validateMonthComponent service.dates month).mapError .ofIoError
  match service.database with
  | none => throw .internal
  | some db => pure ((db.listIndexedPrograms stream month).map (listedProgram service.urls))

/-- `raw_program` up to the file that it streams; `none` is a path that is not routed to it. -/
def rawProgram (route : ProgramRoute) (path : String) :
    Option (Except QueryServiceError String) :=
  (route.extract path).map fun (stream, recordingStartedAt) =>
    resolveProgramPath service.crates service.dates service.answers.symlinkMetadata
      service.dataDir service.searchDbReady service.database stream recordingStartedAt

/-- A client that walks through all lists and follows every link: the answers to the links, when
every list is given. -/
def walk (route : ProgramRoute) : Option (List (Except QueryServiceError String)) := do
  let streams ← service.listStreams.toOption
  let answers ← streams.mapM fun stream => do
    let months ← (service.listMonths stream).toOption
    let answers ← months.mapM fun month => do
      let entries ← (service.listPrograms stream month).toOption
      entries.mapM fun entry => service.rawProgram route entry.path
    pure answers.flatten
  pure answers.flatten

end QueryService

/-- The names on the way from the archive directory to a path below it. -/
def pathIn (archiveRoot path : String) : Option ArchivePath :=
  ((components archiveRoot).isPrefixOf? (components path)).map (List.map utf8Bytes)

/-- What the system answers over an archive tree. -/
def FsAnswers.ofTree (archiveRoot : String) (tree : ArchiveTree) : FsAnswers where
  symlinkMetadata path :=
    match (pathIn archiveRoot path).filter tree.has with
    | none => .error (.notFound "No such file or directory (os error 2)")
    | some names =>
        match tree.node names with
        | .file content => .ok (.file content)
        | _ => .ok .other
  readDir path :=
    match (pathIn archiveRoot path).filter tree.has with
    | none => .error (.notFound "No such file or directory (os error 2)")
    | some names =>
        if tree.node names ≠ .directory then .error (.other "Not a directory (os error 20)")
        else .ok ((tree.children names).map fun name =>
          .ok ⟨name, .ok (tree.node (names ++ [name])).kind⟩)

/-- The directories of the archive are those of streams, and what they hold has names that are
texts. -/
structure HoldsStreams (crate : SanitizeFilename) (tree : ArchiveTree) : Prop where
  root : [] ∈ tree.paths → tree.node [] = .directory
  streams : ∀ name, [name] ∈ tree.paths → tree.node [name] = .directory →
    ∃ stream, name = utf8Bytes stream ∧ ConfigValid crate stream
  months : ∀ stream name, [stream, name] ∈ tree.paths → ∃ month, name = utf8Bytes month

/-- The recorder chooses the path for a file. -/
def NamedByRecorder (crates : Crates) (dataDir path : String) : Prop :=
  ∃ stream program now suffix, ConfigValid crates.sanitizeFilename stream ∧
    NaiveDateTime.HasFourDigitYear now ∧ suffix < 2 ^ 32 ∧
    path = archivePath crates dataDir stream program now suffix

/-- The names on the way from the archive directory to a program's file. -/
def ProgramRow.names (row : ProgramRow) : ArchivePath :=
  [utf8Bytes row.stream, utf8Bytes row.month, utf8Bytes row.filename]

/-- The month of a program has a directory. -/
def ProgramRow.HasMonth (row : ProgramRow) (tree : ArchiveTree) : Prop :=
  [utf8Bytes row.stream, utf8Bytes row.month] ∈ tree.paths ∧
    tree.node [utf8Bytes row.stream, utf8Bytes row.month] = .directory

/-- The file of a program is there. -/
def ProgramRow.HasFile (row : ProgramRow) (tree : ArchiveTree) : Prop :=
  row.names ∈ tree.paths ∧ (tree.node row.names).kind = .file

instance (row : ProgramRow) (tree : ArchiveTree) : Decidable (row.HasMonth tree) :=
  decidable_of_iff (tree.has [utf8Bytes row.stream, utf8Bytes row.month] = true ∧
    (tree.node [utf8Bytes row.stream, utf8Bytes row.month]).kind = .directory)
    (and_congr has_eq_true Node.kind_eq_directory)

instance (row : ProgramRow) (tree : ArchiveTree) : Decidable (row.HasFile tree) :=
  decidable_of_iff (tree.has row.names = true ∧ (tree.node row.names).kind = .file)
    (and_congr_left' has_eq_true)

/-- What the link of a program is answered. -/
def linkAnswer (tree : ArchiveTree) (row : ProgramRow) : Except QueryServiceError String :=
  if row.HasFile tree then .ok row.path else .error (.notFound "program not found")

/-- A service that is ready shows a database and an archive. -/
structure QueryService.Shows (service : QueryService) (db : SearchDb) (tree : ArchiveTree) :
    Prop where
  ready : service.searchDbReady = true
  shown : service.database = some db
  system : service.answers = FsAnswers.ofTree (archiveRoot service.dataDir) tree

/-- A database of recorded programs and an archive of streams. -/
structure Browsable (crates : Crates) (dataDir : String) (db : SearchDb) (tree : ArchiveTree) :
    Prop where
  reachable : IndexReachable crates (archiveRoot dataDir) db
  archive : HoldsStreams crates.sanitizeFilename tree
  named : ∀ row ∈ db.programs, NamedByRecorder crates dataDir row.path

/-- A service that shows what can be browsed. -/
structure QueryService.Browses (service : QueryService) (db : SearchDb) (tree : ArchiveTree) : Prop
  extends service.Shows db tree, Browsable service.crates service.dataDir db tree

/-- The order of the walk. -/
def walkKey (row : ProgramRow) : String ×ₗ String := toLex (row.stream, row.recordingStartedAt)

section Links

variable {urls : UrlEncoding} {route : ProgramRoute}

theorem decodeSegment_encode (text : String) :
    decodeSegment (PercentEncoding.encode (utf8Bytes text)) = some text := by
  rw [decodeSegment, PercentEncoding.decode_encode]
  simp [utf8Bytes, String.fromUTF8?, text.isValidUTF8, String.fromUTF8]

theorem encode_utf8Bytes_ne_nil {text : String} (nonempty : text ≠ "") :
    PercentEncoding.encode (utf8Bytes text) ≠ [] := by
  apply PercentEncoding.encode_ne_nil
  intro empty
  apply nonempty
  rw [utf8Bytes_eq_flatMap, List.flatMap_eq_nil_iff] at empty
  apply String.toList_injective
  apply List.eq_nil_iff_forall_not_mem.mpr
  intro char member
  exact String.utf8EncodeChar_ne_nil (empty char member)

/-- The link of a program is routed to the program. -/
theorem extract_programApiPath (urls : UrlEncoding) (route : ProgramRoute)
    {stream recordingStartedAt : String} (streamGiven : stream ≠ "")
    (startGiven : recordingStartedAt ≠ "") :
    route.extract (programApiPath urls stream recordingStartedAt) =
      some (stream, recordingStartedAt) := by
  have slash : utf8Bytes "/" = [47] := by decide
  have path : utf8Bytes (programApiPath urls stream recordingStartedAt) =
      utf8Bytes "/api/programs/" ++ (PercentEncoding.encode (utf8Bytes stream) ++
        47 :: PercentEncoding.encode (utf8Bytes recordingStartedAt)) := by
    rw [programApiPath, utf8Bytes_append, utf8Bytes_append, utf8Bytes_append, slash,
      urls.encode_eq, urls.encode_eq, List.append_assoc, List.singleton_append]
  rw [route.extract_eq _ _ _ path (encode_utf8Bytes_ne_nil streamGiven)
    (encode_utf8Bytes_ne_nil startGiven), decodeSegment_encode, decodeSegment_encode]
  · rfl
  · intro byte member
    rcases List.mem_append.mp member with inside | inside
    · exact PercentEncoding.isSafe_of_mem_encode inside
    · exact PercentEncoding.isSafe_of_mem_encode inside

end Links

section Listing

variable {root : String} {tree : ArchiveTree}

theorem pathIn_self (root : String) : pathIn root root = some [] := by
  have own := isPrefixOf?_append (components root) []
  rw [List.append_nil] at own
  rw [pathIn, own]
  rfl

theorem pathIn_join (root : String) {name : String} (entry : IsEntryName name) :
    pathIn root (join root name) = some [utf8Bytes name] := by
  rw [pathIn, components_join root entry, isPrefixOf?_append]
  rfl

theorem pathIn_join₃ (root : String) {stream month filename : String}
    (first : IsEntryName stream) (second : IsEntryName month) (third : IsEntryName filename) :
    pathIn root (join (join (join root stream) month) filename) =
      some [utf8Bytes stream, utf8Bytes month, utf8Bytes filename] := by
  rw [pathIn, components_join _ third, components_join _ second, components_join _ first,
    List.append_assoc, List.append_assoc, isPrefixOf?_append]
  rfl

theorem dirNames_of_ok (wanted : DirEntry (List UInt8) → Bool)
    (entries : List (DirEntry (List UInt8))) :
    FsAnswers.dirNames wanted (entries.map .ok) =
      .ok ((entries.filter wanted).map fun entry => fromUtf8Lossy entry.name) := by
  induction entries with
  | nil => rfl
  | cons entry entries ih =>
      rw [List.map_cons, FsAnswers.dirNames, ih]
      by_cases chosen : wanted entry = true
      · rw [List.filter_cons_of_pos chosen, List.map_cons]
        simp only [chosen, ↓reduceIte]
        rfl
      · rw [List.filter_cons_of_neg chosen]
        simp only [chosen]
        rfl

theorem utf8Bytes_injective : Function.Injective utf8Bytes :=
  Function.LeftInverse.injective fromUtf8Lossy_utf8Bytes

/-- Texts that are listed once are strictly ordered. -/
theorem pairwise_lt_insertionSort {texts : List String} (nodup : texts.Nodup) :
    (texts.insertionSort (· ≤ ·)).Pairwise (· < ·) := by
  have ordered := Sql.pairwise_lt_orderBy (fun text : String => text) (by simpa using nodup)
  exact ordered

/-- An entry of a directory of a tree. -/
def treeEntry (tree : ArchiveTree) (names : ArchivePath) (name : FileName) : DirEntry FileName :=
  ⟨name, .ok (tree.node (names ++ [name])).kind⟩

/-- The names of a directory whose wanted entries have texts as names. -/
theorem readDirNames_ofTree {path : String} {names : ArchivePath}
    (located : pathIn root path = some names)
    (directory : names ∈ tree.paths → tree.node names = .directory)
    (wanted : DirEntry FileName → Bool)
    (texts : ∀ name, names ++ [name] ∈ tree.paths →
      wanted (treeEntry tree names name) = true → ∃ text, name = utf8Bytes text) :
    ∃ listed, ((FsAnswers.ofTree root tree).readDirNames path wanted).result = .ok listed ∧
      listed.Pairwise (· < ·) ∧
      ∀ text, text ∈ listed ↔ names ++ [utf8Bytes text] ∈ tree.paths ∧
        wanted (treeEntry tree names (utf8Bytes text)) = true := by
  by_cases present : names ∈ tree.paths
  · have entries : (FsAnswers.ofTree root tree).readDir path =
        .ok (((tree.children names).map (treeEntry tree names)).map .ok) := by
      have found : (pathIn root path).filter tree.has = some names := by
        rw [located]
        exact Option.filter_some_pos (has_eq_true.mpr present)
      simp only [FsAnswers.ofTree, found, directory present, ne_eq, not_true_eq_false,
        ↓reduceIte, List.map_map]
      rfl
    refine ⟨((((tree.children names).map (treeEntry tree names)).filter wanted).map fun entry =>
      fromUtf8Lossy entry.name).insertionSort (· ≤ ·), ?_, ?_, fun text => ?_⟩
    · rw [FsAnswers.readDirNames, Traced.result_ask_bind, entries]
      dsimp only
      rw [dirNames_of_ok]
      rfl
    · apply pairwise_lt_insertionSort
      refine List.Nodup.map_on ?_ (List.Nodup.filter _ ?_)
      · intro first firstMember second secondMember same
        obtain ⟨firstListed, firstWanted⟩ := List.mem_filter.mp firstMember
        obtain ⟨secondListed, secondWanted⟩ := List.mem_filter.mp secondMember
        obtain ⟨firstName, firstChild, rfl⟩ := List.mem_map.mp firstListed
        obtain ⟨secondName, secondChild, rfl⟩ := List.mem_map.mp secondListed
        obtain ⟨firstText, rfl⟩ := texts firstName (mem_children.mp firstChild) firstWanted
        obtain ⟨secondText, rfl⟩ := texts secondName (mem_children.mp secondChild) secondWanted
        simp only [treeEntry, fromUtf8Lossy_utf8Bytes] at same
        rw [same]
      · apply (tree.nodup_children names).map
        intro first second same
        exact congrArg DirEntry.name same
    · rw [(List.perm_insertionSort _ _).mem_iff, List.mem_map]
      constructor
      · intro ⟨entry, member, same⟩
        obtain ⟨listed, kept⟩ := List.mem_filter.mp member
        obtain ⟨name, child, rfl⟩ := List.mem_map.mp listed
        obtain ⟨own, rfl⟩ := texts name (mem_children.mp child) kept
        simp only [treeEntry, fromUtf8Lossy_utf8Bytes] at same
        subst same
        exact ⟨mem_children.mp child, kept⟩
      · intro ⟨child, kept⟩
        refine ⟨treeEntry tree names (utf8Bytes text), List.mem_filter.mpr ⟨?_, kept⟩,
          fromUtf8Lossy_utf8Bytes text⟩
        exact List.mem_map_of_mem (mem_children.mpr child)
  · have absent : (FsAnswers.ofTree root tree).readDir path =
        .error (.notFound "No such file or directory (os error 2)") := by
      have missing : (pathIn root path).filter tree.has = none := by
        rw [located]
        exact Option.filter_some_neg (by simpa [has] using present)
      simp only [FsAnswers.ofTree, missing]
    refine ⟨[], ?_, List.Pairwise.nil, fun text => ?_⟩
    · rw [FsAnswers.readDirNames, Traced.result_ask_bind, absent]
      rfl
    · simp only [List.not_mem_nil, false_iff, not_and]
      intro child
      exact absurd (tree.parents _ _ child).1 present

end Listing

section Files

variable {crates : Crates} {dates : DateParser} {dataDir : String} {tree : ArchiveTree}
  {db : SearchDb} {row : ProgramRow}

/-- The columns of a program whose file the recorder has named. -/
theorem columns_of_path (reachable : IndexReachable crates (archiveRoot dataDir) db)
    (member : row ∈ db.programs) {stream : String} {program : Program} {now : NaiveDateTime}
    {suffix : ℕ} (valid : ConfigValid crates.sanitizeFilename stream)
    (years : now.HasFourDigitYear)
    (path : row.path = archivePath crates dataDir stream program now suffix) :
    row.stream = stream ∧ row.month = now.formatMonth ∧
      row.filename = archiveFilename crates program now suffix ∧
      row.recordingStartedAt = now.formatStartedAt := by
  have linked := reachable.wellFormed.linked.identified row member
  rw [path, identify_archivePath crates dataDir valid program years suffix,
    Option.some.injEq] at linked
  rw [← linked]
  exact ⟨rfl, rfl, rfl, rfl⟩

/-- The path of a program leads to its names. -/
theorem pathIn_path (reachable : IndexReachable crates (archiveRoot dataDir) db)
    (member : row ∈ db.programs) (named : NamedByRecorder crates dataDir row.path) :
    pathIn (archiveRoot dataDir) row.path = some row.names := by
  obtain ⟨stream, program, now, suffix, valid, years, _, path⟩ := named
  obtain ⟨streamEq, monthEq, filenameEq, _⟩ := columns_of_path reachable member valid years path
  have entry : IsEntryName stream := valid.safeComponent_eq "stream" ▸
    isEntryName_safeComponent crates.sanitizeFilename ⟨by decide, by decide, by decide⟩ stream
  have joined : row.path =
      join (join (join (archiveRoot dataDir) row.stream) row.month) row.filename := by
    rw [path, streamEq, monthEq, filenameEq, archivePath, archiveDirectory,
      valid.safeComponent_eq]
  rw [joined]
  exact pathIn_join₃ _ (streamEq ▸ entry) (monthEq ▸ isEntryName_formatMonth now)
    (filenameEq ▸ isEntryName_archiveFilename crates program now suffix)

/-- What the system says about an entry below the archive directory. -/
theorem symlinkMetadata_of_located {root path : String} {names : ArchivePath}
    (located : pathIn root path = some names) :
    (FsAnswers.ofTree root tree).symlinkMetadata path =
      if names ∈ tree.paths then
        match tree.node names with
        | .file content => .ok (.file content)
        | _ => .ok .other
      else .error (.notFound "No such file or directory (os error 2)") := by
  dsimp only [FsAnswers.ofTree]
  rw [located]
  by_cases present : names ∈ tree.paths
  · rw [Option.filter_some_pos (has_eq_true.mpr present), if_pos present]
  · rw [Option.filter_some_neg (by simpa [has] using present), if_neg present]

/-- The group of a program leads to its file. -/
theorem resolveProgramPath_of_named (keeps : crates.sanitizeFilename.KeepsNames)
    (dates : DateParser) (reachable : IndexReachable crates (archiveRoot dataDir) db)
    (member : row ∈ db.programs) (named : NamedByRecorder crates dataDir row.path) :
    resolveProgramPath crates dates (FsAnswers.ofTree (archiveRoot dataDir) tree).symlinkMetadata
      dataDir true (some db) row.stream row.recordingStartedAt = linkAnswer tree row := by
  have answer : (FsAnswers.ofTree (archiveRoot dataDir) tree).symlinkMetadata row.path = _ :=
    symlinkMetadata_of_located (pathIn_path reachable member named)
  obtain ⟨stream, program, now, suffix, valid, years, small, path⟩ := named
  obtain ⟨streamEq, monthEq, filenameEq, startEq⟩ :=
    columns_of_path reachable member valid years path
  have group : db.groupProgram row.stream row.recordingStartedAt = some row :=
    (mem_groupProgram reachable.wellFormed.tables).mpr ⟨member, rfl⟩
  have found : db.findIndexedProgram row.stream row.recordingStartedAt =
      some (db.indexedProgram row) := by
    rw [SearchDb.findIndexedProgram, group]
    rfl
  have columns : (db.indexedProgram row).stream = stream ∧
      (db.indexedProgram row).month = now.formatMonth ∧
      (db.indexedProgram row).filename = archiveFilename crates program now suffix :=
    ⟨streamEq, monthEq, filenameEq⟩
  unfold resolveProgramPath
  rw [validateStreamComponent, streamEq, startEq, validatePathComponent_of_valid valid,
    validateRecordingStartedAt_formatStartedAt crates.chrono years, ← streamEq, ← startEq]
  simp only [found, columns, resolveArchiveFilePath_eq keeps valid years small, ← path, answer]
  by_cases present : row.names ∈ tree.paths
  · cases known : tree.node row.names <;>
      simp only [linkAnswer, ProgramRow.HasFile, present, known, ↓reduceIte] <;> rfl
  · simp only [linkAnswer, ProgramRow.HasFile, present, ↓reduceIte, false_and]
    rfl

/-- Recordings of later months come later. -/
theorem recordingStartedAt_lt_of_month_lt {first second : NaiveDateTime}
    (firstYears : first.HasFourDigitYear) (secondYears : second.HasFourDigitYear)
    (earlier : first.formatMonth < second.formatMonth) :
    first.formatStartedAt < second.formatStartedAt := by
  have width {now : NaiveDateTime} (years : now.HasFourDigitYear) :
      now.formatMonth.toList.length = 7 := by
    rw [NaiveDateTime.formatMonth, String.toList_ofList,
      NaiveDateTime.monthText_of_fourDigitYear years]
    rfl
  rw [String.lt_iff_toList_lt] at earlier ⊢
  rw [← List.take_append_drop 7 first.formatStartedAt.toList,
    ← List.take_append_drop 7 second.formatStartedAt.toList,
    ← toList_formatMonth_eq_take firstYears, ← toList_formatMonth_eq_take secondYears,
    FixedWidth.append_lt_append_iff ((width firstYears).trans (width secondYears).symm)]
  exact .inl earlier

end Files

section Walk

variable {service : QueryService} {db : SearchDb} {tree : ArchiveTree} {stream month : String}
  {row : ProgramRow}

/-- The programs of a stream and a month in the order of the list. -/
def SearchDb.listedRows (db : SearchDb) (stream month : String) : List ProgramRow :=
  Sql.orderBy (fun row : ProgramRow => toLex (row.recordingStartedAt, row.filename))
    (db.programs.filter fun row => row.stream = stream && row.month = month)

theorem mem_listedRows :
    row ∈ db.listedRows stream month ↔
      row ∈ db.programs ∧ row.stream = stream ∧ row.month = month := by
  simp [SearchDb.listedRows]

/-- The programs of a month are listed in the order of their recordings. -/
theorem pairwise_listedRows {crates : Crates} {root : String}
    (reachable : IndexReachable crates root db) (stream month : String) :
    (db.listedRows stream month).Pairwise fun first second =>
      walkKey first < walkKey second := by
  have groups : (db.listedRows stream month).Pairwise fun first second =>
      first.group ≠ second.group := by
    apply List.pairwise_map.mp
    apply ((Sql.perm_orderBy _ _).map _).nodup_iff.mpr
    exact reachable.wellFormed.tables.programGroups.filter _
  have ordered := Sql.pairwise_orderBy
    (fun row : ProgramRow => toLex (row.recordingStartedAt, row.filename))
    (db.programs.filter fun row => row.stream = stream && row.month = month)
  refine (ordered.and groups).imp_of_mem fun {first second} firstMember secondMember both => ?_
  obtain ⟨_, firstStream, _⟩ := mem_listedRows.mp firstMember
  obtain ⟨_, secondStream, _⟩ := mem_listedRows.mp secondMember
  have sameStream : first.stream = second.stream := firstStream.trans secondStream.symm
  have startLe : first.recordingStartedAt ≤ second.recordingStartedAt := by
    rcases Prod.Lex.toLex_le_toLex.mp both.1 with less | same
    · exact less.le
    · exact same.1.le
  have startNe : first.recordingStartedAt ≠ second.recordingStartedAt := fun same =>
    both.2 (Prod.ext sameStream same)
  exact Prod.Lex.toLex_lt_toLex.mpr (.inr ⟨sameStream, lt_of_le_of_ne startLe startNe⟩)

theorem isDir_treeEntry {names : ArchivePath} {name : FileName} :
    FsAnswers.isDir (treeEntry tree names name) = true ↔
      tree.node (names ++ [name]) = .directory := by
  simp [FsAnswers.isDir, treeEntry, Except.toOption]

/-- `list_streams` lists the directories of the archive. -/
theorem exists_listStreams (browses : service.Browses db tree) :
    ∃ streams, service.listStreams = .ok streams ∧ streams.Pairwise (· < ·) ∧
      ∀ stream, stream ∈ streams ↔
        [utf8Bytes stream] ∈ tree.paths ∧ tree.node [utf8Bytes stream] = .directory := by
  obtain ⟨streams, listed, ordered, members⟩ := readDirNames_ofTree
    (pathIn_self (archiveRoot service.dataDir)) browses.archive.root FsAnswers.isDir
    fun name present directory => by
      obtain ⟨stream, own, _⟩ := browses.archive.streams name present
        (isDir_treeEntry.mp directory)
      exact ⟨stream, own⟩
  refine ⟨streams, ?_, ordered, fun stream => (members stream).trans
    (and_congr_right fun _ => isDir_treeEntry)⟩
  rw [QueryService.listStreams, browses.ready, browses.system, FsAnswers.listStreams, listed]
  rfl

/-- `list_months` lists the directories of a stream that are months. -/
theorem exists_listMonths (browses : service.Browses db tree)
    (valid : ConfigValid service.crates.sanitizeFilename stream)
    (directory : tree.node [utf8Bytes stream] = .directory) :
    ∃ months, service.listMonths stream = .ok months ∧ months.Pairwise (· < ·) ∧
      ∀ month, month ∈ months ↔ [utf8Bytes stream, utf8Bytes month] ∈ tree.paths ∧
        tree.node [utf8Bytes stream, utf8Bytes month] = .directory ∧
          isMonthComponent service.dates month = true := by
  have entry : IsEntryName stream := valid.safeComponent_eq "stream" ▸
    isEntryName_safeComponent service.crates.sanitizeFilename
      ⟨by decide, by decide, by decide⟩ stream
  obtain ⟨months, listed, ordered, members⟩ := readDirNames_ofTree
    (pathIn_join (archiveRoot service.dataDir) entry) (fun _ => directory)
    (fun entry => FsAnswers.isDir entry &&
      isMonthComponent service.dates (fromUtf8Lossy entry.name))
    fun name present _ => browses.archive.months _ name present
  refine ⟨months, ?_, ordered, fun month => ?_⟩
  · have accepted : validateStreamComponent service.crates.sanitizeFilename stream = .ok () :=
      validatePathComponent_of_valid valid "stream"
    rw [QueryService.listMonths, browses.ready, browses.system, FsAnswers.listMonths, accepted,
      Traced.lift_ok_bind, listed]
    rfl
  · rw [members, Bool.and_eq_true, isDir_treeEntry]
    simp only [treeEntry, fromUtf8Lossy_utf8Bytes]
    rfl

/-- `list_programs` lists the programs of a month of a stream. -/
theorem listPrograms_eq (browses : service.Browses db tree)
    (valid : ConfigValid service.crates.sanitizeFilename stream)
    (isMonth : isMonthComponent service.dates month = true) :
    service.listPrograms stream month =
      .ok ((db.listedRows stream month).map fun row =>
        listedProgram service.urls (db.indexedProgram row)) := by
  have streamAccepted : validateStreamComponent service.crates.sanitizeFilename stream = .ok () :=
    validatePathComponent_of_valid valid "stream"
  have monthAccepted : validateMonthComponent service.dates month = .ok () := by
    simp [validateMonthComponent, isMonth]
  rw [QueryService.listPrograms, browses.ready, browses.shown, streamAccepted, monthAccepted]
  exact congrArg Except.ok (List.map_map ..)

/-- The link of a program leads to its file. -/
theorem rawProgram_eq (keeps : service.crates.sanitizeFilename.KeepsNames)
    (browses : service.Browses db tree) (route : ProgramRoute) (member : row ∈ db.programs) :
    service.rawProgram route (programApiPath service.urls row.stream row.recordingStartedAt) =
      some (linkAnswer tree row) := by
  have named := browses.named row member
  obtain ⟨stream, program, now, suffix, valid, years, small, path⟩ := named
  obtain ⟨streamEq, _, _, startEq⟩ := columns_of_path browses.reachable member valid years path
  have start : row.recordingStartedAt ≠ "" := by
    intro empty
    have size := utf8ByteSize_formatStartedAt years
    rw [← startEq, empty] at size
    cases size
  rw [QueryService.rawProgram, extract_programApiPath service.urls route
    (streamEq ▸ valid.1) start, Option.map_some, browses.ready, browses.shown, browses.system]
  exact congrArg some (resolveProgramPath_of_named keeps service.dates browses.reachable member
    (browses.named row member))

/-- The month of a program is listed when it has a directory. -/
theorem isMonthComponent_month {crates : Crates} (dates : DateParser) {dataDir : String}
    (reachable : IndexReachable crates (archiveRoot dataDir) db) (member : row ∈ db.programs)
    (named : NamedByRecorder crates dataDir row.path) :
    isMonthComponent dates row.month = true := by
  obtain ⟨stream, program, now, suffix, valid, years, small, path⟩ := named
  obtain ⟨_, monthEq, _, _⟩ := columns_of_path reachable member valid years path
  have accepted := validateMonthComponent_formatMonth dates years
  rw [monthEq]
  by_contra other
  rw [validateMonthComponent, if_pos (by simpa using other)] at accepted
  cases accepted

theorem distinct_walkKeys {crates : Crates} {root : String}
    (reachable : IndexReachable crates root db) : (db.programs.map walkKey).Nodup := by
  have groups : (db.programs.map fun row => row.group).Nodup :=
    reachable.wellFormed.tables.programGroups
  have keys := groups.map toLex.injective
  rw [List.map_map] at keys
  exact keys

/-- The programs of later months of a stream come later. -/
theorem walkKey_lt_of_month_lt (browses : service.Browses db tree) {first second : ProgramRow}
    {later : String} (firstMember : first ∈ db.listedRows stream month)
    (secondMember : second ∈ db.listedRows stream later) (earlier : month < later) :
    walkKey first < walkKey second := by
  obtain ⟨firstStored, firstStream, rfl⟩ := mem_listedRows.mp firstMember
  obtain ⟨secondStored, secondStream, rfl⟩ := mem_listedRows.mp secondMember
  obtain ⟨_, _, _, _, firstValid, firstYears, _, firstPath⟩ := browses.named _ firstStored
  obtain ⟨_, _, _, _, secondValid, secondYears, _, secondPath⟩ :=
    browses.named _ secondStored
  obtain ⟨_, firstMonth, _, firstStart⟩ :=
    columns_of_path browses.reachable firstStored firstValid firstYears firstPath
  obtain ⟨_, secondMonth, _, secondStart⟩ :=
    columns_of_path browses.reachable secondStored secondValid secondYears secondPath
  rw [firstMonth, secondMonth] at earlier
  have starts := recordingStartedAt_lt_of_month_lt firstYears secondYears earlier
  rw [← firstStart, ← secondStart] at starts
  exact Prod.Lex.toLex_lt_toLex.mpr (.inr ⟨firstStream.trans secondStream.symm, starts⟩)

theorem mapM_eq_some_map {α β : Type*} {make : α → Option β} {value : α → β} {list : List α}
    (each : ∀ entry ∈ list, make entry = some (value entry)) :
    list.mapM make = some (list.map value) := by
  induction list with
  | nil => rfl
  | cons entry list ih =>
      rw [List.mapM_cons, each entry List.mem_cons_self,
        ih fun other member => each other (List.mem_cons_of_mem _ member)]
      rfl

end Walk

/-- All lists are given, and the walk comes to the indexed programs whose months have directories,
each once, ordered by the streams and then by the starts of the recordings. -/
theorem walk_eq {service : QueryService} {db : SearchDb} {tree : ArchiveTree}
    (keeps : service.crates.sanitizeFilename.KeepsNames) (browses : service.Browses db tree)
    (route : ProgramRoute) :
    service.walk route = some (((Sql.orderBy walkKey db.programs).filter fun row =>
      row.HasMonth tree).map (linkAnswer tree)) := by
  obtain ⟨streams, listedStreams, streamsOrdered, memStreams⟩ := exists_listStreams browses
  -- The months of every stream, and the programs of every month.
  have choose (stream : String) (listed : stream ∈ streams) :
      ∃ months, service.listMonths stream = .ok months ∧ months.Pairwise (· < ·) ∧
        ∀ month, month ∈ months ↔ [utf8Bytes stream, utf8Bytes month] ∈ tree.paths ∧
          tree.node [utf8Bytes stream, utf8Bytes month] = .directory ∧
            isMonthComponent service.dates month = true := by
    obtain ⟨present, directory⟩ := (memStreams stream).mp listed
    obtain ⟨own, same, valid⟩ := browses.archive.streams _ present directory
    exact exists_listMonths browses (utf8Bytes_injective same ▸ valid) directory
  choose! months listedMonths monthsOrdered memMonths using choose
  have programs (stream : String) (listed : stream ∈ streams) (month : String)
      (inside : month ∈ months stream) :
      ((service.listPrograms stream month).toOption.bind fun entries =>
        entries.mapM fun entry => service.rawProgram route entry.path) =
        some ((db.listedRows stream month).map (linkAnswer tree)) := by
    obtain ⟨present, directory⟩ := (memStreams stream).mp listed
    obtain ⟨own, same, valid⟩ := browses.archive.streams _ present directory
    rw [listPrograms_eq browses (utf8Bytes_injective same ▸ valid)
      ((memMonths stream listed month).mp inside).2.2, Except.toOption, Option.bind_some,
      List.mapM_map]
    apply mapM_eq_some_map
    intro row member
    exact rawProgram_eq keeps browses route (mem_listedRows.mp member).1
  have walked : service.walk route = some (streams.flatMap fun stream =>
      (months stream).flatMap fun month =>
        (db.listedRows stream month).map (linkAnswer tree)) := by
    have answers : streams.mapM (fun stream => do
        let months ← (service.listMonths stream).toOption
        let answers ← months.mapM fun month => do
          let entries ← (service.listPrograms stream month).toOption
          entries.mapM fun entry => service.rawProgram route entry.path
        pure answers.flatten) = some (streams.map fun stream =>
          ((months stream).map fun month =>
            (db.listedRows stream month).map (linkAnswer tree)).flatten) := by
      apply mapM_eq_some_map
      intro stream listed
      have inside := mapM_eq_some_map (programs stream listed)
      rw [listedMonths stream listed]
      exact congrArg (Option.bind · fun answers => some answers.flatten) inside
    rw [QueryService.walk, listedStreams]
    exact congrArg (Option.bind · fun answers => some answers.flatten) answers
  have distinct := distinct_walkKeys browses.reachable
  have rows : (streams.flatMap fun stream => (months stream).flatMap fun month =>
      db.listedRows stream month) =
        Sql.orderBy walkKey (db.programs.filter fun row => row.HasMonth tree) := by
    refine Sql.eq_orderBy_of_pairwise ?_ (distinct.sublist (List.filter_sublist.map _))
      fun row => ?_
    · rw [List.pairwise_flatMap]
      refine ⟨fun stream listed => ?_, streamsOrdered.imp fun earlier => ?_⟩
      · rw [List.pairwise_flatMap]
        refine ⟨fun month _ => pairwise_listedRows browses.reachable stream month,
          (monthsOrdered stream listed).imp fun earlier => ?_⟩
        intro first firstMember second secondMember
        exact walkKey_lt_of_month_lt browses firstMember secondMember earlier
      · intro first firstMember second secondMember
        obtain ⟨_, _, firstListed⟩ := List.mem_flatMap.mp firstMember
        obtain ⟨_, _, secondListed⟩ := List.mem_flatMap.mp secondMember
        rw [← (mem_listedRows.mp firstListed).2.1, ← (mem_listedRows.mp secondListed).2.1]
          at earlier
        exact Prod.Lex.toLex_lt_toLex.mpr (.inl earlier)
    · rw [List.mem_filter, decide_eq_true_eq]
      constructor
      · intro member
        obtain ⟨stream, listed, inside⟩ := List.mem_flatMap.mp member
        obtain ⟨month, there, inside⟩ := List.mem_flatMap.mp inside
        obtain ⟨stored, rfl, rfl⟩ := mem_listedRows.mp inside
        obtain ⟨present, directory, _⟩ := (memMonths _ listed _).mp there
        exact ⟨stored, present, directory⟩
      · intro found
        obtain ⟨member, present, directory⟩ := found
        have above : [utf8Bytes row.stream] ++ [utf8Bytes row.month] ∈ tree.paths := present
        have listed := (memStreams row.stream).mpr ⟨mem_of_append above, node_of_append above⟩
        have isMonth := isMonthComponent_month service.dates browses.reachable member
          (browses.named row member)
        exact List.mem_flatMap.mpr ⟨row.stream, listed, List.mem_flatMap.mpr ⟨row.month,
          (memMonths row.stream listed row.month).mpr ⟨present, directory, isMonth⟩,
          mem_listedRows.mpr ⟨member, rfl, rfl⟩⟩⟩
  rw [walked, ← Sql.orderBy_filter distinct, ← rows]
  simp only [List.map_flatMap]

namespace Sample

theorem utf8EncodeChar_ofNat {byte : UInt8} (ascii : byte.toNat < 128) :
    String.utf8EncodeChar (Char.ofNat byte.toNat) = [byte] := by
  obtain ⟨⟨⟨code, bound⟩⟩⟩ := byte
  change code < 128 at ascii
  interval_cases code <;> rfl

/-- The safe bytes are the text. -/
def urls : UrlEncoding where
  encode text := String.ofList
    ((PercentEncoding.encode (utf8Bytes text)).map fun byte => Char.ofNat byte.toNat)
  encode_eq text := by
    rw [utf8Bytes_eq_flatMap, String.toList_ofList, List.flatMap_map]
    have single : ∀ byte ∈ PercentEncoding.encode (utf8Bytes text),
        String.utf8EncodeChar (Char.ofNat byte.toNat) = [byte] := by
      intro byte member
      apply utf8EncodeChar_ofNat
      rcases PercentEncoding.isSafe_of_mem_encode member with rfl | unreserved
      · decide
      · simp only [PercentEncoding.isUnreserved, Bool.or_eq_true, Bool.and_eq_true,
          decide_eq_true_eq, beq_iff_eq, UInt8.le_iff_toNat_le, ← UInt8.toNat_inj,
          UInt8.reduceToNat] at unreserved
        omega
    rw [List.flatMap_congr single, List.flatMap_singleton']

/-- The two segments behind the fixed ones. -/
def route : ProgramRoute where
  extract path :=
    let rest := (utf8Bytes path).drop (utf8Bytes "/api/programs/").length
    let stream := rest.takeWhile (· ≠ 47)
    (decodeSegment stream).bind fun first =>
      (decodeSegment (rest.drop (stream.length + 1))).map fun second => (first, second)
  extract_eq path stream recordingStartedAt bytes _ _ safe := by
    have free : ∀ byte ∈ stream, decide (byte ≠ 47) = true := by
      intro byte member
      rcases safe byte (List.mem_append_left _ member) with rfl | unreserved
      · rfl
      · apply decide_eq_true
        rintro rfl
        cases unreserved
    have segment : (stream ++ 47 :: recordingStartedAt).takeWhile (· ≠ 47) = stream := by
      rw [List.takeWhile_append_of_pos free, List.takeWhile_cons_of_neg (by decide),
        List.append_nil]
    have rest : (stream ++ 47 :: recordingStartedAt).drop (stream.length + 1) =
        recordingStartedAt := by
      rw [← List.drop_drop, List.drop_left, List.drop_one, List.tail_cons]
    simp only [bytes, List.drop_left, segment, rest]

/-- A recording that begins a second after the first one. -/
def laterNewsPath : String := "data/archive/nhk/2026-07/2026-07-01_12-00-02.no-title.jsonl"

/-- A service over the archive of one file. -/
def oneFileService (db : SearchDb) : QueryService :=
  ⟨crates, .padded, urls, "data", true, some db, FsAnswers.ofTree (archiveRoot "data")
    (treeOfOneFile (utf8Bytes "2026-07-01_12-00-01.no-title.jsonl"))⟩

end Sample

end AribcapDb
