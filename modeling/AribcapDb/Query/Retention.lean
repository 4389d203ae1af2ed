import AribcapDb.Foundation.Transition
import AribcapDb.Query.Discovery
import AribcapDb.Search.Coverage

/-! # Browsing an archive that changes

Streams, months and files are made, files grow, files and directories go, and the index follows
some time later. Whatever has happened so far, clients are given all lists, and every link leads
to the file of its program or is not found (`archive_stays_browsable`). After a collection and a
cleanup a walk leads to the recordings that have not expired (`unexpired_programs_stay`). -/

namespace AribcapDb

open FileTree

/-- The service over a database and an archive. -/
def QueryService.showing (service : QueryService) (db : SearchDb) (tree : ArchiveTree) :
    QueryService :=
  { service with
    searchDbReady := true
    database := some db
    answers := FsAnswers.ofTree (archiveRoot service.dataDir) tree }

/-- The second of a program's start lies before a cutoff. -/
def ProgramRow.isExpired (chrono : Chrono) (cutoff : Instant) (row : ProgramRow) : Bool :=
  ((chrono.parseStartedAt row.recordingStartedAt).bind (fromLocalDatetime chrono)).any fun time =>
    time < cutoff

/-- What is below the archive directory, and what is indexed of it. -/
structure ArchiveSite where
  tree : ArchiveTree
  db : SearchDb

namespace ArchiveSite

/-- The entries that `open_archive_file` makes: the directories on the way and an empty file. A
configured stream is the name of its directory. -/
inductive Makes (crates : Crates) : ArchivePath → Node (List UInt8) → Prop where
  | root : Makes crates [] .directory
  | stream (stream : String) : ConfigValid crates.sanitizeFilename stream →
      Makes crates [utf8Bytes stream] .directory
  | month (stream : String) (now : NaiveDateTime) :
      Makes crates [utf8Bytes stream, utf8Bytes now.formatMonth] .directory
  | file (stream : String) (program : Program) (now : NaiveDateTime) (suffix : ℕ) :
      Makes crates [utf8Bytes stream, utf8Bytes now.formatMonth,
        utf8Bytes (archiveFilename crates program now suffix)] (.file [])

/-- The archive and the index change one call and one transaction at a time. Files and directories
may go for any reason. -/
inductive Step (crates : Crates) (dataDir : String) (before : ArchiveSite) :
    ArchiveSite → Prop where
  | make (path : ArchivePath) (entry : Node (List UInt8)) (fresh : path ∉ before.tree.paths)
      (above : ∀ front name, path = front ++ [name] →
        front ∈ before.tree.paths ∧ before.tree.node front = .directory) :
      Makes crates path entry →
      Step crates dataDir before { before with tree := before.tree.create path entry fresh above }
  | append (path : ArchivePath) (content : List UInt8)
      (file : (before.tree.node path).kind = .file) :
      Step crates dataDir before { before with tree := before.tree.write path content file }
  /-- A file of the recorder is ingested, and may have gone since it was read. -/
  | ingest (path : String) (access : FileAccess) (db : SearchDb) :
      NamedByRecorder crates dataDir path →
      ingestFile crates (archiveRoot dataDir) before.db path access = .ok db →
      Step crates dataDir before { before with db }
  | unlink (failure : Option String) (path : ArchivePath) :
      Step crates dataDir before { before with tree := (removeFile failure before.tree path).2 }
  | removeDirectory (failure : Option String) (path : ArchivePath) :
      Step crates dataDir before { before with tree := (removeDir failure before.tree path).2 }
  | cleanup (tryExists : String → Option Bool) :
      Step crates dataDir before
        { before with db := (before.db.cleanupIndexForDeletedFiles tryExists).2 }

/-- Where an entry stands, so far as the recorder makes entries. -/
structure Kept (crate : SanitizeFilename) (tree : ArchiveTree) : Prop extends
    HoldsStreams crate tree where
  regular : ∀ path ∈ tree.paths, path.length = 3 → (tree.node path).kind = .file

/-- An archive that the recorder has kept, and an index of nothing. -/
structure Start (crates : Crates) (site : ArchiveSite) : Prop where
  kept : Kept crates.sanitizeFilename site.tree
  db : site.db = .migrated

/-- Reached by any steps. -/
def Run (crates : Crates) (dataDir : String) : ArchiveSite → Prop :=
  Transition.Reachable (Start crates) (Step crates dataDir)

/-- The invariant of a run. -/
structure Holds (crates : Crates) (dataDir : String) (site : ArchiveSite) : Prop where
  kept : Kept crates.sanitizeFilename site.tree
  reachable : IndexReachable crates (archiveRoot dataDir) site.db
  named : ∀ row ∈ site.db.programs, NamedByRecorder crates dataDir row.path

end ArchiveSite

/-- What `try_exists` may say about entries of the archive that are no links. -/
structure TellsExistence (archiveRoot : String) (tree : ArchiveTree)
    (tryExists : String → Option Bool) : Prop where
  file : ∀ path names, pathIn archiveRoot path = some names → names ∈ tree.paths →
    (tree.node names).kind = .file → tryExists path = some true
  absent : ∀ path names, pathIn archiveRoot path = some names → names ∉ tree.paths →
    tryExists path ≠ some true

/-- `try_exists` over an archive tree without links. -/
def tryExistsIn (archiveRoot : String) (tree : ArchiveTree) (path : String) : Option Bool :=
  some ((pathIn archiveRoot path).any tree.has)

theorem tellsExistence_tryExistsIn (archiveRoot : String) (tree : ArchiveTree) :
    TellsExistence archiveRoot tree (tryExistsIn archiveRoot tree) where
  file path names located present _ := by
    rw [tryExistsIn, located]
    exact congrArg some (has_eq_true.mpr present)
  absent path names located gone told := by
    rw [tryExistsIn, located] at told
    exact gone (has_eq_true.mp (Option.some.inj told))

namespace ArchiveSite

variable {crates : Crates} {dataDir : String} {crate : SanitizeFilename}
  {before after site : ArchiveSite} {tree smaller : ArchiveTree}

namespace Kept

/-- A new entry stands where the recorder makes it. -/
theorem create (kept : Kept crates.sanitizeFilename tree) {path : ArchivePath}
    {entry : Node (List UInt8)} (fresh : path ∉ tree.paths)
    (above : ∀ front name, path = front ++ [name] →
      front ∈ tree.paths ∧ tree.node front = .directory) (makes : Makes crates path entry) :
    Kept crates.sanitizeFilename (tree.create path entry fresh above) := by
  -- An entry is the new one, or it stands where it stood.
  have either {other : ArchivePath}
      (member : other ∈ (tree.create path entry fresh above).paths) :
      other = path ∧ (tree.create path entry fresh above).node other = entry ∨
        other ∈ tree.paths ∧ (tree.create path entry fresh above).node other = tree.node other := by
    rcases List.mem_cons.mp member with rfl | old
    · exact .inl ⟨rfl, Function.update_self ..⟩
    · have different : other ≠ path := by
        rintro rfl
        exact fresh old
      exact .inr ⟨old, Function.update_of_ne different ..⟩
  refine ⟨⟨fun member => ?_, fun name member directory => ?_, fun stream name member => ?_⟩,
    fun other member depth => ?_⟩
  · rcases either member with ⟨rfl, node⟩ | ⟨old, node⟩
    · cases makes
      exact node
    · exact node.trans (kept.root old)
  · rcases either member with ⟨rfl, node⟩ | ⟨old, node⟩
    · cases makes with
      | stream stream valid => exact ⟨stream, rfl, valid⟩
    · exact kept.streams name old (node.symm.trans directory)
  · rcases either member with ⟨rfl, node⟩ | ⟨old, node⟩
    · cases makes with
      | month stream now => exact ⟨now.formatMonth, rfl⟩
    · exact kept.months stream name old
  · rcases either member with ⟨rfl, node⟩ | ⟨old, node⟩
    · rw [node]
      cases makes with
      | root | stream _ _ | month _ _ => cases depth
      | file stream program now suffix => rfl
    · rw [node]
      exact kept.regular other old depth

/-- A file goes on being a file. -/
theorem write (kept : Kept crate tree) {path : ArchivePath} (content : List UInt8)
    (file : (tree.node path).kind = .file) : Kept crate (tree.write path content file) := by
  have kind (other : ArchivePath) :
      ((tree.write path content file).node other).kind = (tree.node other).kind := by
    by_cases same : other = path
    · subst same
      have node : (tree.write other content file).node other = .file content :=
        Function.update_self ..
      rw [node, file]
      rfl
    · have node : (tree.write path content file).node other = tree.node other :=
        Function.update_of_ne same ..
      rw [node]
  have directory (other : ArchivePath) :
      (tree.write path content file).node other = .directory ↔ tree.node other = .directory := by
    rw [← Node.kind_eq_directory, kind, Node.kind_eq_directory]
  exact ⟨⟨fun member => (directory []).mpr (kept.root member),
    fun name member isDirectory => kept.streams name member ((directory _).mp isDirectory),
    kept.months⟩, fun other member depth => (kind other).trans (kept.regular other member depth)⟩

theorem shrink (kept : Kept crate tree) (shrinks : tree.Shrinks smaller) : Kept crate smaller := by
  obtain ⟨node, fewer⟩ := shrinks
  refine ⟨⟨fun member => ?_, fun name member directory => ?_, fun stream name member => ?_⟩,
    fun other member depth => ?_⟩
  · rw [node]
    exact kept.root (fewer member)
  · rw [node] at directory
    exact kept.streams name (fewer member) directory
  · exact kept.months stream name (fewer member)
  · rw [node]
    exact kept.regular other (fewer member) depth

end Kept

namespace Holds

theorem start (started : Start crates site) : Holds crates dataDir site := by
  refine ⟨started.kept, .initial started.db, fun row member => ?_⟩
  rw [started.db] at member
  cases member

theorem withTree (holds : Holds crates dataDir site)
    (kept : Kept crates.sanitizeFilename tree) : Holds crates dataDir { site with tree } :=
  ⟨kept, holds.reachable, holds.named⟩

/-- A transaction adds no program but that of its file. -/
theorem ingest (holds : Holds crates dataDir site) {path : String} {access : FileAccess}
    {db : SearchDb} (named : NamedByRecorder crates dataDir path)
    (ran : ingestFile crates (archiveRoot dataDir) site.db path access = .ok db) :
    Holds crates dataDir { site with db } := by
  refine ⟨holds.kept, holds.reachable.next (.ingest path access ran), fun row member => ?_⟩
  rcases (ingestFile_cases ran).program holds.reachable.wellFormed member with old | own
  · exact holds.named row old
  · exact own ▸ named

theorem cleanup (holds : Holds crates dataDir site) (tryExists : String → Option Bool) :
    Holds crates dataDir
      { site with db := (site.db.cleanupIndexForDeletedFiles tryExists).2 } := by
  refine ⟨holds.kept, holds.reachable.next (.cleanup _ _), fun row member => ?_⟩
  exact holds.named row
    ((holds.reachable.wellFormed.cleanup_spec tryExists).1 row |>.mp member).1

theorem step (holds : Holds crates dataDir before) (stepped : Step crates dataDir before after) :
    Holds crates dataDir after := by
  cases stepped with
  | make path entry fresh above makes => exact holds.withTree (holds.kept.create fresh above makes)
  | append path content file => exact holds.withTree (holds.kept.write content file)
  | ingest path access db named ran => exact holds.ingest named ran
  | unlink failure path =>
      exact holds.withTree (holds.kept.shrink (shrinks_removeFile failure before.tree path))
  | removeDirectory failure path =>
      exact holds.withTree (holds.kept.shrink (shrinks_removeDir failure before.tree path))
  | cleanup tryExists => exact holds.cleanup tryExists

theorem run (run : Run crates dataDir site) : Holds crates dataDir site := by
  refine Transition.Reachable.invariant ?_ ?_ run
  · intro site started
    exact .start started
  · intro before after _ holds stepped
    exact holds.step stepped

end Holds

section Browsing

variable {service : QueryService}

/-- A service over a state of the run. -/
theorem Holds.browses (holds : Holds service.crates service.dataDir site) :
    (service.showing site.db site.tree).Browses site.db site.tree :=
  ⟨⟨rfl, rfl, rfl⟩, holds.reachable, holds.kept.toHoldsStreams, holds.named⟩

/-- A walk at any time. -/
theorem Holds.walk (holds : Holds service.crates service.dataDir site)
    (keeps : service.crates.sanitizeFilename.KeepsNames) (route : ProgramRoute) :
    (service.showing site.db site.tree).walk route =
      some (((Sql.orderBy walkKey site.db.programs).filter fun row =>
        row.HasMonth site.tree).map (linkAnswer site.tree)) := by
  refine walk_eq ?_ holds.browses route
  exact keeps

/-- The file of a program stands in the directory of its month. -/
theorem hasMonth_of_hasFile {row : ProgramRow} (file : row.HasFile tree) : row.HasMonth tree := by
  have below : [utf8Bytes row.stream, utf8Bytes row.month] ++ [utf8Bytes row.filename] ∈
      tree.paths := file.1
  exact ⟨mem_of_append below, node_of_append below⟩

/-- After a cleanup a walk leads to the files of all indexed programs. -/
theorem Holds.walk_cleaned (holds : Holds service.crates service.dataDir site)
    (keeps : service.crates.sanitizeFilename.KeepsNames) (route : ProgramRoute)
    {tryExists : String → Option Bool}
    (tells : TellsExistence (archiveRoot service.dataDir) site.tree tryExists) :
    (service.showing (site.db.cleanupIndexForDeletedFiles tryExists).2 site.tree).walk route =
      some (((Sql.orderBy walkKey site.db.programs).filter fun row =>
        row.HasFile site.tree).map fun row => .ok row.path) := by
  have cleaned := holds.cleanup tryExists
  have distinct := distinct_walkKeys holds.reachable
  have left (row : ProgramRow) :
      row ∈ (site.db.cleanupIndexForDeletedFiles tryExists).2.programs ↔
        row ∈ site.db.programs ∧ row.HasFile site.tree := by
    rw [(holds.reachable.wellFormed.cleanup_spec tryExists).1 row]
    refine and_congr_right fun member => ?_
    have located := pathIn_path holds.reachable member (holds.named row member)
    constructor
    · intro there
      have present : row.names ∈ site.tree.paths := by
        by_contra gone
        apply tells.absent _ _ located gone
        cases told : tryExists row.path with
        | none => rw [told] at there; cases there
        | some answer => rw [told] at there; exact congrArg some there
      exact ⟨present, holds.kept.regular _ present rfl⟩
    · intro file
      rw [tells.file _ _ located file.1 file.2]
      rfl
  have rows : Sql.orderBy walkKey (site.db.cleanupIndexForDeletedFiles tryExists).2.programs =
      (Sql.orderBy walkKey site.db.programs).filter fun row => row.HasFile site.tree := by
    rw [← Sql.orderBy_filter distinct]
    refine Sql.eq_orderBy_of_pairwise
      (Sql.pairwise_lt_orderBy walkKey (distinct_walkKeys cleaned.reachable))
      (distinct.sublist (List.filter_sublist.map _)) fun row => ?_
    rw [Sql.mem_orderBy, List.mem_filter, decide_eq_true_eq]
    exact left row
  have walked := cleaned.walk keeps route
  dsimp only at walked
  rw [walked, rows, List.filter_filter]
  have listed : (Sql.orderBy walkKey site.db.programs).filter (fun row =>
      decide (row.HasMonth site.tree) && decide (row.HasFile site.tree)) =
        (Sql.orderBy walkKey site.db.programs).filter fun row => row.HasFile site.tree := by
    refine List.filter_congr fun row _ => ?_
    rw [← Bool.decide_and, decide_eq_decide]
    exact ⟨And.right, fun file => ⟨hasMonth_of_hasFile file, file⟩⟩
  rw [listed]
  refine congrArg some (List.map_congr_left fun row member => ?_)
  exact if_pos (of_decide_eq_true (List.mem_filter.mp member).2)

end Browsing

/-- The answers of a service over a state of the archive. -/
structure AnswersBrowsers (service : QueryService) (site : ArchiveSite) (route : ProgramRoute) :
    Prop where
  /-- Every link of an indexed program leads to its file or is not found. -/
  links : ∀ row ∈ site.db.programs,
    (service.showing site.db site.tree).rawProgram route
        (programApiPath service.urls row.stream row.recordingStartedAt) =
      some (if row.HasFile site.tree then .ok row.path
        else .error (.notFound "program not found"))
  /-- A walk is given all lists and comes to the programs of the months that are there, ordered by
  the streams and then by the starts of the recordings. -/
  walk : (service.showing site.db site.tree).walk route =
    some (((Sql.orderBy walkKey site.db.programs).filter fun row =>
      row.HasMonth site.tree).map fun row =>
        if row.HasFile site.tree then .ok row.path else .error (.notFound "program not found"))
  /-- After a cleanup it leads to the files of all indexed programs. -/
  cleaned : ∀ tryExists, TellsExistence (archiveRoot service.dataDir) site.tree tryExists →
    (service.showing (site.db.cleanupIndexForDeletedFiles tryExists).2 site.tree).walk route =
      some (((Sql.orderBy walkKey site.db.programs).filter fun row =>
        row.HasFile site.tree).map fun row => .ok row.path)

/-- Whatever happens to the archive and whenever the index follows, it can be browsed. -/
theorem archive_stays_browsable {service : QueryService} {site : ArchiveSite}
    (keeps : service.crates.sanitizeFilename.KeepsNames)
    (run : Run service.crates service.dataDir site) (route : ProgramRoute) :
    AnswersBrowsers service site route := by
  have holds := Holds.run run
  refine ⟨fun row member => ?_, holds.walk keeps route, fun _ tells =>
    holds.walk_cleaned keeps route tells⟩
  refine rawProgram_eq ?_ holds.browses route member
  exact keeps

end ArchiveSite

namespace Sample

theorem configValid_nhk : ConfigValid crates.sanitizeFilename "nhk" :=
  ⟨by decide, by decide +kernel⟩

theorem namedByRecorder_newsPath : NamedByRecorder crates "data" newsPath :=
  ⟨"nhk", news, clock 1, 0, configValid_nhk, by decide, by decide, by decide +kernel⟩

def newsTree : ArchiveTree := treeOfOneFile (utf8Bytes "2026-07-01_12-00-01.no-title.jsonl")

/-- The archive of one file. -/
theorem start_newsTree : ArchiveSite.Run crates "data" ⟨newsTree, .migrated⟩ := by
  -- Every entry is on the way to the file.
  have way {path : ArchivePath} (member : path ∈ newsTree.paths) :
      path <+: [utf8Bytes "nhk", utf8Bytes "2026-07",
        utf8Bytes "2026-07-01_12-00-01.no-title.jsonl"] := (List.mem_inits _ _).mp member
  refine .initial ⟨⟨⟨fun _ => rfl, fun name present _ => ?_, fun stream name present => ?_⟩,
    fun path _ depth => ?_⟩, rfl⟩
  · exact ⟨"nhk", (List.cons_prefix_cons.mp (way present)).1, configValid_nhk⟩
  · exact ⟨"2026-07", (List.cons_prefix_cons.mp (List.cons_prefix_cons.mp (way present)).2).1⟩
  · exact congrArg FileTree.Node.kind (if_pos depth)

/-- The archive of one file that has been ingested. -/
theorem exists_newsSite : ∃ site : ArchiveSite, ArchiveSite.Run crates "data" site ∧
    site.db.programs.map (fun row => row.path) = [newsPath] := by
  have evaluates : (ingestFile crates "data/archive" .migrated newsPath
      (access newsFile)).toOption.map (fun db => db.programs.map fun row => row.path) =
        some [newsPath] := by
    decide +kernel
  obtain ⟨db, ran, paths⟩ := exists_ok_of_toOption_map evaluates
  exact ⟨_, start_newsTree.next
    (.ingest newsPath (access newsFile) db namedByRecorder_newsPath ran), paths⟩

/-- Where the second file is made. -/
def laterNames : ArchivePath :=
  [utf8Bytes "nhk", utf8Bytes "2026-07", utf8Bytes "2026-07-01_12-00-02.no-title.jsonl"]

theorem laterNames_fresh : laterNames ∉ newsTree.paths := by decide +kernel

theorem laterNames_above (front : ArchivePath) (name : List UInt8)
    (split : laterNames = front ++ [name]) :
    front ∈ newsTree.paths ∧ newsTree.node front = .directory := by
  have directory : laterNames =
      [utf8Bytes "nhk", utf8Bytes "2026-07"] ++ [utf8Bytes "2026-07-01_12-00-02.no-title.jsonl"] :=
    rfl
  obtain ⟨rfl, _⟩ := List.append_inj' (directory.symm.trans split) rfl
  exact ⟨by decide +kernel, rfl⟩

def laterTree : ArchiveTree :=
  newsTree.create laterNames (.file []) laterNames_fresh laterNames_above

/-- The two files are ingested. -/
def laterVisits : Except String (SearchDb × SearchDb) := do
  let first ← ingestFile crates "data/archive" .migrated newsPath (access newsFile)
  let second ← ingestFile crates "data/archive" first laterNewsPath (access newsFile)
  pure (first, second)

/-- The archive of two files, the first of which expires at the start of the second. -/
theorem exists_laterSite : ∃ site : ArchiveSite, ArchiveSite.Run crates "data" site ∧
    site.tree = laterTree ∧
      site.db.programs.map (fun row =>
        (row.path, row.isExpired crates.chrono (clock 2).instant)) =
          [(newsPath, true), (laterNewsPath, false)] := by
  have evaluates : laterVisits.toOption.map (fun visits => visits.2.programs.map fun row =>
      (row.path, row.isExpired crates.chrono (clock 2).instant)) =
        some [(newsPath, true), (laterNewsPath, false)] := by
    decide +kernel
  obtain ⟨⟨first, second⟩, visits, paths⟩ := exists_ok_of_toOption_map evaluates
  obtain ⟨db, visitFirst, visits⟩ := exists_ok_of_bind visits
  obtain ⟨db', visitSecond, visits⟩ := exists_ok_of_bind visits
  cases visits
  have names : laterNames = [utf8Bytes "nhk", utf8Bytes (clock 2).formatMonth,
      utf8Bytes (archiveFilename crates news (clock 2) 0)] := by decide +kernel
  have made := start_newsTree.next
    (.make laterNames (.file []) laterNames_fresh laterNames_above
      (names ▸ .file "nhk" news (clock 2) 0))
  have early := made.next
    (.ingest newsPath (access newsFile) first namedByRecorder_newsPath visitFirst)
  have late := early.next (.ingest laterNewsPath (access newsFile) second
    ⟨"nhk", news, clock 2, 0, configValid_nhk, by decide, by decide, by decide +kernel⟩
    visitSecond)
  exact ⟨_, late, rfl, paths⟩

end Sample

namespace ArchiveSite

theorem archive_stays_browsable_sample : ∃ site : ArchiveSite,
    site.db.programs.map (fun row => row.path) = [Sample.newsPath] ∧
      AnswersBrowsers (Sample.oneFileService .migrated) site Sample.route := by
  obtain ⟨site, run, paths⟩ := Sample.exists_newsSite
  have keeps : Sample.crates.sanitizeFilename.KeepsNames := keepsNames_ascii _ _
  exact ⟨site, paths, archive_stays_browsable keeps run Sample.route⟩

/-- A file expires with its program. -/
theorem isExpiredPath_names {crates : Crates} {dataDir : String} {db : SearchDb}
    {row : ProgramRow} (reachable : IndexReachable crates (archiveRoot dataDir) db)
    (member : row ∈ db.programs) (named : NamedByRecorder crates dataDir row.path)
    (cutoff : Instant) :
    isExpiredPath crates.chrono row.names cutoff = row.isExpired crates.chrono cutoff := by
  obtain ⟨stream, program, now, suffix, valid, years, _, path⟩ := named
  obtain ⟨_, _, filenameEq, startEq⟩ := columns_of_path reachable member valid years path
  have read : row.names.getLast?.bind toStr = some row.filename := toStr_eq_some.mpr rfl
  rw [isExpiredPath, read, ProgramRow.isExpired, startEq, filenameEq]
  simp only [parseRecordingStartedAt_archiveFilename crates program years,
    crates.chrono.parseStartedAt_format now years, Option.bind_some]

/-- After a collection and a cleanup a walk leads to the files that were there and have not
expired or are being written. -/
theorem unexpired_programs_stay {service : QueryService} {site : ArchiveSite}
    (keeps : service.crates.sanitizeFilename.KeepsNames)
    (run : Run service.crates service.dataDir site) (route : ProgramRoute)
    (calls : CollectionCalls) {now cutoff : Instant} {retention count : ℕ}
    (computed : retentionCutoff service.crates.chrono now retention = .ok cutoff)
    (activePaths : List ArchivePath) {after : ArchiveTree}
    (collected : collectGarbage service.crates.chrono service.dates calls now retention activePaths
      site.tree = (.ok count, after))
    {tryExists : String → Option Bool}
    (tells : TellsExistence (archiveRoot service.dataDir) after tryExists) :
    (service.showing (site.db.cleanupIndexForDeletedFiles tryExists).2 after).walk route =
      some (((Sql.orderBy walkKey site.db.programs).filter fun row => row.HasFile site.tree ∧
        (row.isExpired service.crates.chrono cutoff = true → row.names ∈ activePaths)).map
          fun row => .ok row.path) := by
  have holds := Holds.run run
  obtain ⟨files, months, result⟩ := collectGarbage_removes service.dates activePaths site.tree
    calls computed
  rw [collected] at result
  have shrinks : site.tree.Shrinks after :=
    ⟨result.removes.node, fun path member => ((result.removes.paths path).mp member).1⟩
  have walked := (holds.withTree (holds.kept.shrink shrinks)).walk_cleaned keeps route tells
  dsimp only at walked
  rw [walked]
  have file (row : ProgramRow) (member : row ∈ site.db.programs) :
      row.HasFile after ↔ row.HasFile site.tree ∧
        (row.isExpired service.crates.chrono cutoff = true → row.names ∈ activePaths) := by
    have expired := isExpiredPath_names holds.reachable member (holds.named row member) cutoff
    have kind : (after.node row.names).kind = (site.tree.node row.names).kind := by
      rw [shrinks.node]
    have noMonth : row.names ∉ months := fun inside => by
      cases (result.emptied _ inside).directory.1
    have removed : row.names ∈ files ↔ row.HasFile site.tree ∧
        row.isExpired service.crates.chrono cutoff = true ∧ row.names ∉ activePaths := by
      have collects : row.names ∈ files ↔
          ExpiredFile (IsExpiredName service.crates.chrono cutoff) activePaths site.tree
            row.names := ⟨result.expired _, result.allFiles count rfl _⟩
      rw [collects, expiredFile_iff, isCollected, expired, Bool.and_eq_true, decide_eq_true_eq]
      exact and_congr_left'
        ⟨fun there => ⟨there.1, there.2.2⟩, fun there => ⟨there.1, rfl, there.2⟩⟩
    unfold ProgramRow.HasFile
    rw [kind, result.removes.paths, List.mem_append, not_or, removed]
    unfold ProgramRow.HasFile
    tauto
  refine congrArg some (congrArg (List.map _) (List.filter_congr fun row member => ?_))
  rw [decide_eq_decide]
  exact file row ((Sql.mem_orderBy ..).mp member)

/-- The cutoff is the second in which the later of two recordings started. -/
theorem unexpired_programs_stay_sample : ∃ (site : ArchiveSite) (after : ArchiveTree),
    (collectGarbage Sample.crates.chrono .padded Sample.faultlessCalls (Sample.clock 2).instant 0
        [] site.tree) = (.ok 1, after) ∧
      site.db.programs.map (fun row =>
        (row.path, row.isExpired Sample.crates.chrono (Sample.clock 2).instant)) =
          [(Sample.newsPath, true), (Sample.laterNewsPath, false)] ∧
        ((Sample.oneFileService .migrated).showing
            (site.db.cleanupIndexForDeletedFiles (tryExistsIn "data/archive" after)).2
            after).walk Sample.route =
          some (((Sql.orderBy walkKey site.db.programs).filter fun row => row.HasFile site.tree ∧
            (row.isExpired Sample.crates.chrono (Sample.clock 2).instant = true →
              row.names ∈ ([] : List ArchivePath))).map fun row => .ok row.path) := by
  obtain ⟨site, run, tree, paths⟩ := Sample.exists_laterSite
  have keeps : Sample.crates.sanitizeFilename.KeepsNames := keepsNames_ascii _ _
  have computed : retentionCutoff Sample.crates.chrono (Sample.clock 2).instant 0 =
      .ok (Sample.clock 2).instant := by decide +kernel
  have counted : (collectGarbage Sample.crates.chrono .padded Sample.faultlessCalls
      (Sample.clock 2).instant 0 [] site.tree).1 = .ok 1 := by
    rw [tree]
    decide +kernel
  exact ⟨site, _, Prod.ext counted rfl, paths,
    unexpired_programs_stay keeps run Sample.route Sample.faultlessCalls
      computed [] (Prod.ext counted rfl) (tellsExistence_tryExistsIn _ _)⟩

end ArchiveSite

end AribcapDb
