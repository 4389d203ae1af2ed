import AribcapDb.Search.Coverage

/-! # Rebuilding the index

A pass from the empty database over a tree that stands still leaves each collision group to the
greatest path whose file has a present EIT, with the genres and captions of that file (`Rebuilt`).
So what a rebuild leaves depends on the tree only: two orders of the directory walk give the same
contents up to row ids (`rebuild_is_order_independent`). -/

namespace AribcapDb

/-- `run_rebuild`, once the files of the database are removed. -/
def runRebuild (crates : Crates) (archiveRoot : String) (walk : List (Except String PathAttempt))
    (tryExists : String → Option Bool) : Except String SearchDb :=
  match ingestOnce crates archiveRoot .migrated walk with
  | (.error error, _) => .error error
  | (.ok (), db) => .ok (db.cleanupIndexForDeletedFiles tryExists).2

/-- The paths among `paths` that may own the program of a group. -/
def candidates (crates : Crates) (archiveRoot : String) (files : FileSystem) (paths : Set String)
    (group : String × String) : Set String :=
  {path | path ∈ paths ∧ ∃ file content, identify crates archiveRoot path = some file ∧
    file.group = group ∧ files path = some (.file content) ∧
      (fileIndex crates.serde content).program ≠ none}

/-- The tables show the program that a file amounts to. -/
def ShowsFile (crates : Crates) (files : FileSystem) (db : SearchDb) (program : ProgramRow) :
    Prop :=
  ∃ content index, files program.path = some (.file content) ∧
    (fileIndex crates.serde content).program = some index ∧
      HasProgram crates.unicode db program.toFileIdentity program.id index

/-- What a pass over unindexed files leaves. -/
structure Rebuilt (crates : Crates) (archiveRoot : String) (files : FileSystem)
    (paths : Set String) (db : SearchDb) : Prop where
  formed : WellFormed crates archiveRoot db
  indexed : ∀ path, (db.indexedFile path).isSome → path ∈ paths
  greatest : ∀ program ∈ db.programs,
    IsGreatest (candidates crates archiveRoot files paths program.group) program.path
  shown : ∀ program ∈ db.programs, ShowsFile crates files db program
  present : ∀ group, (candidates crates archiveRoot files paths group).Nonempty →
    ∃ program ∈ db.programs, program.group = group

variable {crates : Crates} {archiveRoot : String} {files : FileSystem} {paths : Set String}
  {db : SearchDb}

/-- A file that has shown a present EIT goes on having a program. -/
theorem isSome_foldl_read {serde : SerdeJson} {index : FileIndex} (known : index.program.isSome)
    (lines : List (List UInt8)) : (lines.foldl (FileIndex.read serde) index).program.isSome := by
  induction lines generalizing index with
  | nil => exact known
  | cons line more ih =>
      obtain ⟨program, found⟩ := Option.isSome_iff_exists.mp known
      apply ih
      unfold FileIndex.read FileIndex.readRecord
      cases lineRecord serde line with
      | skipped => exact known
      | eit eit => rfl
      | caption caption => rw [found]; rfl

namespace Scanning

variable {file : FileIdentity} {state : ScanState}

/-- The first present EIT of a file gives it a program without captions, whoever had the group
before. -/
theorem firstEit (scanning : Scanning crates archiveRoot file state)
    (unowned : state.programId = none) (eit : EitPresent) :
    HasProgram crates.unicode (state.db.upsertProgram crates.unicode file eit).2 file
      (state.db.upsertProgram crates.unicode file eit).1 ⟨eit, []⟩ := by
  have upserted :=
    (upsertProgram_spec scanning.tables scanning.linked.identified scanning.own eit).2
  generalize state.db.upsertProgram crates.unicode file eit = result at upserted ⊢
  refine ⟨(upserted.program _).mpr (.inl rfl), fun genre => ?_, ?_⟩
  · rw [upserted.genre]
    simp
  · rw [List.map_eq_nil_iff, SearchDb.captionsOf, List.filter_eq_nil_iff]
    intro caption member own
    obtain ⟨there, spared⟩ := (upserted.caption caption).mp member
    obtain ⟨program, present, same, _⟩ := scanning.linked.captionOwner caption there
    have group := (upserted.id_iff program present).mp (same.trans (by simpa using own))
    by_cases path : program.path = file.path
    · obtain ⟨row, found, known⟩ := scanning.linked.owner program present
      rw [path, Function.update_self, Option.some.injEq] at found
      rw [← found, ScanState.row, unowned] at known
      cases known
    · exact spared program ((mem_rival scanning.tables).mpr ⟨present, group, path⟩) same.symm

/-- A scan from the start of a file changes nothing before the first present EIT, and shows what it
has read from there on. -/
theorem takes (scanning : Scanning crates archiveRoot file state) (unowned : state.programId = none)
    {index : FileIndex} (empty : index.program = none) (pos : state.pos = index.offset)
    (lineNo : state.lineNo = index.lines) (lines : List (List UInt8)) :
    ((lines.foldl (FileIndex.read crates.serde) index).program = none ∧
        (lines.foldl (ingestLine crates file) state).db = state.db) ∨
      (lines.foldl (FileIndex.read crates.serde) index).program ≠ none ∧
        ScanShows crates.unicode file (lines.foldl (ingestLine crates file) state)
          (lines.foldl (FileIndex.read crates.serde) index) := by
  induction lines generalizing state index with
  | nil => exact .inl ⟨empty, rfl⟩
  | cons line more ih =>
      have next := scanning.step line
      rw [ingestLine_eq] at next
      simp only [List.foldl_cons]
      rw [ingestLine_eq]
      cases record : lineRecord crates.serde line with
      | skipped =>
          simp only [record] at next ⊢
          have read : (index.read crates.serde line).program = none := by
            simp only [FileIndex.read, record, FileIndex.readRecord, empty]
          exact ih next unowned read (by simp only [FileIndex.read, pos])
            (by simp only [FileIndex.read, lineNo])
      | caption caption =>
          simp only [record, unowned] at next ⊢
          have read : (index.read crates.serde line).program = none := by
            simp only [FileIndex.read, record, FileIndex.readRecord, empty, Option.map_none]
          exact ih next rfl read (by simp only [FileIndex.read, pos])
            (by simp only [FileIndex.read, lineNo])
      | eit eit =>
          simp only [record] at next ⊢
          have program : (index.read crates.serde line).program = some ⟨eit, []⟩ := by
            simp only [FileIndex.read, record, FileIndex.readRecord, empty, Option.map_none,
              Option.getD_none]
          refine .inr ⟨Option.isSome_iff_ne_none.mp (isSome_foldl_read (by rw [program]; rfl) more),
            ScanShows.run ⟨?_, ?_, ?_⟩ next more⟩
          · simp only [FileIndex.read, pos]
          · simp only [FileIndex.read, lineNo]
          · rw [program]
            exact ⟨_, rfl, scanning.firstEit unowned eit⟩

end Scanning

section Candidates

theorem candidates_mono {path : String} (group : String × String) :
    candidates crates archiveRoot files paths group ⊆
      candidates crates archiveRoot files (insert path paths) group :=
  fun _ ⟨inside, rest⟩ => ⟨.inr inside, rest⟩

/-- One more path is the only new candidate. -/
theorem mem_candidates_insert {path other : String} {group : String × String}
    (candidate : other ∈ candidates crates archiveRoot files (insert path paths) group) :
    other ∈ candidates crates archiveRoot files paths group ∨
      other = path ∧ path ∈ candidates crates archiveRoot files {path} group := by
  obtain ⟨rfl | inside, rest⟩ := candidate
  · exact .inr ⟨rfl, rfl, rest⟩
  · exact .inl ⟨inside, rest⟩

end Candidates

namespace Rebuilt

/-- A visit that writes no table but `indexed_files`: a new candidate is beaten. -/
theorem barren (rebuilt : Rebuilt crates archiveRoot files paths db) {path : String}
    {after : SearchDb} (formed : WellFormed crates archiveRoot after)
    (indexed : ∀ other, (after.indexedFile other).isSome → other ∈ insert path paths)
    (beaten : ∀ group, path ∈ candidates crates archiveRoot files {path} group →
      ∃ winner ∈ db.programs, winner.group = group ∧ path ≤ winner.path)
    (programs : after.programs = db.programs) (genres : after.programGenres = db.programGenres)
    (captions : after.captionLines = db.captionLines) :
    Rebuilt crates archiveRoot files (insert path paths) after where
  formed := formed
  indexed := indexed
  greatest program member := by
    rw [programs] at member
    obtain ⟨own, bound⟩ := rebuilt.greatest program member
    refine ⟨candidates_mono _ own, fun other candidate => ?_⟩
    rcases mem_candidates_insert candidate with old | ⟨rfl, new⟩
    · exact bound old
    · obtain ⟨winner, there, group, below⟩ := beaten _ new
      exact rebuilt.formed.tables.programGroups.eq_of_key there member group ▸ below
  shown program member := by
    obtain ⟨content, index, held, read, has⟩ := rebuilt.shown program (programs ▸ member)
    refine ⟨content, index, held, read, programs ▸ has.program, genres ▸ has.genres, ?_⟩
    rw [SearchDb.captionsOf, captions]
    exact has.captions
  present group := by
    rintro ⟨other, candidate⟩
    rw [programs]
    rcases mem_candidates_insert candidate with old | ⟨rfl, new⟩
    · exact rebuilt.present group ⟨other, old⟩
    · obtain ⟨winner, there, same, _⟩ := beaten _ new
      exact ⟨winner, there, same⟩

/-- A visit that leaves the group to its file, which no candidate of the group exceeds. -/
theorem taken (rebuilt : Rebuilt crates archiveRoot files paths db) {file : FileIdentity}
    {content : List UInt8} {index : ProgramIndex} {after : SearchDb} {id : ℕ}
    (formed : WellFormed crates archiveRoot after)
    (indexed : ∀ other, (after.indexedFile other).isSome → other ∈ insert file.path paths)
    (identified : identify crates archiveRoot file.path = some file)
    (held : files file.path = some (.file content))
    (read : (fileIndex crates.serde content).program = some index)
    (best : ∀ program ∈ db.programs, program.group = file.group → program.path ≤ file.path)
    (untouched : Untouched crates archiveRoot file db after)
    (has : HasProgram crates.unicode after file id index) :
    Rebuilt crates archiveRoot files (insert file.path paths) after := by
  have own (program : ProgramRow) (member : program ∈ after.programs)
      (group : program.group = file.group) :
      program = { file with id, metadata := programMetadata crates.unicode index.eit } :=
    formed.tables.programGroups.eq_of_key member has.program group
  refine ⟨formed, indexed, fun program member => ?_, fun program member => ?_, fun group => ?_⟩
  · by_cases group : program.group = file.group
    · rw [own program member group]
      refine ⟨⟨.inl rfl, file, content, identified, rfl, held, by simp [read]⟩,
        fun other candidate => ?_⟩
      rcases mem_candidates_insert candidate with old | ⟨rfl, _⟩
      · obtain ⟨winner, there, same⟩ := rebuilt.present _ ⟨other, old⟩
        have below := (rebuilt.greatest winner there).2 (same ▸ old)
        exact below.trans (best winner there same)
      · exact le_rfl
    · have there := (untouched.programs program group).mp member
      obtain ⟨candidate, bound⟩ := rebuilt.greatest program there
      refine ⟨candidates_mono _ candidate, fun other candidate => ?_⟩
      rcases mem_candidates_insert candidate with old | ⟨rfl, _, other, _, known, same, _⟩
      · exact bound old
      · rw [identified, Option.some.injEq] at known
        exact absurd (known ▸ same.symm) group
  · by_cases group : program.group = file.group
    · rw [own program member group]
      exact ⟨content, index, held, read, has⟩
    · have there := (untouched.programs program group).mp member
      obtain ⟨bytes, amount, present, amounts, old⟩ := rebuilt.shown program there
      have kept := (untouched.programs
        { program with metadata := programMetadata crates.unicode amount.eit } group).mpr
          old.program
      refine ⟨bytes, amount, present, amounts, kept,
        fun genre => (untouched.genres program there group genre).trans (old.genres genre), ?_⟩
      rw [untouched.captions program there group]
      exact old.captions
  · rintro ⟨other, candidate⟩
    by_cases same : group = file.group
    · exact ⟨_, has.program, same.symm⟩
    · rcases mem_candidates_insert candidate with old | ⟨rfl, _, own, _, known, equal, _⟩
      · obtain ⟨program, there, rfl⟩ := rebuilt.present group ⟨other, old⟩
        exact ⟨program, (untouched.programs program same).mpr there, rfl⟩
      · rw [identified, Option.some.injEq] at known
        exact absurd (known ▸ equal.symm) same

/-- Every visit of a new path that succeeds. -/
theorem ingested (rebuilt : Rebuilt crates archiveRoot files paths db) {file : FileIdentity}
    {content : List UInt8} {mtime : ℕ} {after : SearchDb}
    (identified : identify crates archiveRoot file.path = some file)
    (held : files file.path = some (.file content)) (fresh : file.path ∉ paths)
    (ran : ingestFile crates archiveRoot db file.path (prefixAccess content mtime) = .ok after) :
    Rebuilt crates archiveRoot files (insert file.path paths) after := by
  have formed := rebuilt.formed.ingestFile ran
  have ingested := ingestFile_cases ran
  have absent : db.indexedFile file.path = none := by
    by_contra found
    exact fresh (rebuilt.indexed _ (Option.isSome_iff_ne_none.mpr found))
  have indexed : ∀ other, (after.indexedFile other).isSome → other ∈ insert file.path paths := by
    intro other found
    by_cases own : other = file.path
    · exact .inl own
    · right
      have ownership := ingested.ownership rebuilt.formed identified
      generalize readsPresentEit crates archiveRoot db file.path (prefixAccess content mtime) = eit
        at ownership
      cases ownership with
      | kept _ others => exact rebuilt.indexed other (others other own ▸ found)
      | taken _ _ _ _ _ _ others =>
          rcases others other own with same | ⟨old, _, there, _⟩
          · exact rebuilt.indexed other (same ▸ found)
          · exact rebuilt.indexed other (by rw [there]; rfl)
  have untouched := ingested.untouched rebuilt.formed identified
  cases ingested with
  | unidentified skipped =>
      rw [identified] at skipped
      cases skipped
  | sticky row found _ =>
      rw [absent] at found
      cases found
  | current row _ _ found _ _ =>
      rw [absent] at found
      cases found
  | shrunk row _ _ _ found _ _ =>
      rw [absent] at found
      cases found
  | lost own winner row known _ group beaten _ _ _ =>
      obtain rfl : own = file := Option.some.inj (known.symm.trans identified)
      obtain ⟨member, same⟩ := (mem_groupProgram rebuilt.formed.tables).mp group
      refine rebuilt.barren formed indexed ?_ rfl rfl rfl
      rintro _ ⟨_, other, _, named, rfl, _⟩
      rw [identified, Option.some.injEq] at named
      exact ⟨winner, member, named ▸ same, beaten.le⟩
  | scanned own metadata bytes programId startOffset lineNo known _ _ read starts =>
      obtain rfl : own = file := Option.some.inj (known.symm.trans identified)
      obtain rfl : content = bytes := Option.some.inj read
      have scanning := rebuilt.formed.scanning identified starts
      cases starts with
      | resume row found _ _ =>
          rw [absent] at found
          cases found
      | fresh _ best =>
          have start : FileIndex.empty.program = none := rfl
          rcases scanning.takes rfl start rfl rfl (Framing.frames newline content) with
            ⟨empty, same⟩ | ⟨known_program, shows'⟩
          · -- The scan commits the row of its file and nothing else.
            have programs := congrArg SearchDb.programs same
            have genres := congrArg SearchDb.programGenres same
            have captions := congrArg SearchDb.captionLines same
            refine rebuilt.barren formed indexed ?_ programs genres captions
            rintro _ ⟨_, _, bytes, _, _, present, program⟩
            rw [held] at present
            cases present
            exact absurd empty program
          · obtain ⟨index, read⟩ := Option.ne_none_iff_exists'.mp known_program
            obtain ⟨row, _, _, _, _, program⟩ :=
              (shows'.commit metadata.sizeBytes metadata.mtime).row
            rw [read] at program
            obtain ⟨id, _, has⟩ := program
            exact rebuilt.taken formed indexed identified held read
              (fun rival member group =>
                best rival ((mem_groupProgram rebuilt.formed.tables).mpr ⟨member, group⟩))
              untouched has

/-- A visit of a new path. -/
theorem visit (rebuilt : Rebuilt crates archiveRoot files paths db) {attempt : PathAttempt}
    {content : List UInt8} (held : files attempt.path = some (.file content))
    (reads : attempt.Reads content) (fresh : attempt.path ∉ paths) :
    ∃ after, attemptPath crates archiveRoot db attempt = some after ∧
      Rebuilt crates archiveRoot files (insert attempt.path paths) after := by
  obtain ⟨path, access, transaction⟩ := attempt
  obtain ⟨rfl, mtime, rfl⟩ := reads
  cases identified : identify crates archiveRoot path with
  | none =>
      have ran : ingestFile crates archiveRoot db path (prefixAccess content mtime) = .ok db := by
        simp only [ingestFile, identified]
      refine ⟨db, by simp only [attemptPath, ↓reduceIte, ran, Except.toOption], ?_⟩
      refine rebuilt.barren rebuilt.formed (fun other found => .inr (rebuilt.indexed other found))
        ?_ rfl rfl rfl
      rintro _ ⟨_, _, _, known, _⟩
      rw [identified] at known
      cases known
  | some file =>
      obtain rfl := path_of_identify identified
      have absent : db.indexedFile file.path = none := by
        by_contra found
        exact fresh (rebuilt.indexed _ (Option.isSome_iff_ne_none.mpr found))
      obtain ⟨after, ran⟩ : ∃ after, ingestFile crates archiveRoot db file.path
          (prefixAccess content mtime) = .ok after := by
        simp only [ingestFile, identified, prefixAccess, absent]
        rcases markRecordingStartedAtCollisionLoser_cases db file content.length mtime with
          ⟨proceeds, _⟩ | ⟨_, _, _, _, marked⟩
        · rw [proceeds]
          exact ⟨_, rfl⟩
        · rw [marked]
          exact ⟨_, rfl⟩
      refine ⟨after, by simp only [attemptPath, ↓reduceIte, ran, Except.toOption], ?_⟩
      exact rebuilt.ingested identified held fresh ran

/-- A pass over new paths succeeds. -/
theorem pass {attempts : List PathAttempt} (rebuilt : Rebuilt crates archiveRoot files paths db)
    (held : ∀ attempt ∈ attempts, ∃ content,
      files attempt.path = some (.file content) ∧ attempt.Reads content)
    (once : attempts.Pairwise fun first second => first.path ≠ second.path)
    (fresh : ∀ attempt ∈ attempts, attempt.path ∉ paths) :
    ∃ after, ingestPathStream crates archiveRoot db attempts = (.ok (), after) ∧
      Rebuilt crates archiveRoot files (paths ∪ {path | ∃ attempt ∈ attempts, attempt.path = path})
        after := by
  induction attempts generalizing db paths with
  | nil =>
      refine ⟨db, rfl, ?_⟩
      have same : paths ∪ {path | ∃ attempt ∈ ([] : List PathAttempt), attempt.path = path} =
          paths := by simp
      rwa [same]
  | cons attempt rest ih =>
      obtain ⟨apart, later⟩ := List.pairwise_cons.mp once
      obtain ⟨content, present, reads⟩ := held attempt List.mem_cons_self
      obtain ⟨middle, ran, step⟩ := rebuilt.visit present reads (fresh attempt List.mem_cons_self)
      obtain ⟨after, passed, whole⟩ := ih step
        (fun other member => held other (List.mem_cons_of_mem _ member)) later
        fun other member => by
          rintro (same | old)
          · exact apart other member same.symm
          · exact fresh other (List.mem_cons_of_mem _ member) old
      refine ⟨after, by simp only [ingestPathStream, ran, passed], ?_⟩
      have same : insert attempt.path paths ∪ {path | ∃ attempt ∈ rest, attempt.path = path} =
          paths ∪ {path | ∃ other ∈ attempt :: rest, other.path = path} := by
        ext path
        simp only [Set.mem_union, Set.mem_insert_iff, Set.mem_ofPred_eq, List.mem_cons,
          exists_eq_or_imp, eq_comm (a := path)]
        tauto
      rwa [← same]

theorem migrated (crates : Crates) (archiveRoot : String) (files : FileSystem) :
    Rebuilt crates archiveRoot files ∅ .migrated where
  formed := .migrated crates archiveRoot
  indexed := by simp [SearchDb.migrated, SearchDb.indexedFile]
  greatest := by simp [SearchDb.migrated]
  shown := by simp [SearchDb.migrated]
  present group := by
    rintro ⟨_, absent, _⟩
    exact absurd absent (Set.notMem_empty _)

/-- A cleanup removes nothing while every visited path exists. -/
theorem cleanup (rebuilt : Rebuilt crates archiveRoot files paths db)
    (exist : ∀ path ∈ paths, (files path).isSome) :
    (db.cleanupIndexForDeletedFiles files.tryExists).2 = db := by
  have missing : db.indexedPaths.filter (fun path => !(files.tryExists path).getD false) = [] := by
    rw [List.filter_eq_nil_iff]
    intro path member
    have listed : path ∈ paths := by
      rw [SearchDb.indexedPaths, List.mem_dedup, List.mem_append, List.mem_map, List.mem_map]
        at member
      rcases member with ⟨program, there, rfl⟩ | ⟨row, there, rfl⟩
      · exact rebuilt.indexed _ (rebuilt.formed.isSome_indexedFile there)
      · refine rebuilt.indexed _ (List.find?_isSome.mpr ⟨row, there, ?_⟩)
        exact decide_eq_true rfl
    simp [FileSystem.tryExists, exist path listed]
  rw [SearchDb.cleanupIndexForDeletedFiles]
  simp only [missing, List.foldl_nil]

end Rebuilt

/-- The paths that a startup scan attempts. -/
def visitedPaths (walk : List (Except String PathAttempt)) : Set String :=
  {path | ∃ attempt ∈ scannedPaths walk, attempt.path = path}

/-- A rebuild over a tree that stands still succeeds. -/
theorem runRebuild_rebuilt {walk : List (Except String PathAttempt)}
    (walks : WalksTree archiveRoot files walk) :
    ∃ db, runRebuild crates archiveRoot walk files.tryExists = .ok db ∧
      Rebuilt crates archiveRoot files (visitedPaths walk) db := by
  have once : (scannedPaths walk).Pairwise fun first second => first.path ≠ second.path := by
    rw [scannedPaths_eq]
    exact walks.once.filter _
  obtain ⟨db, ran, rebuilt⟩ := (Rebuilt.migrated crates archiveRoot files).pass
    (fun _ member => walks.held member) once fun _ _ => Set.notMem_empty _
  rw [Set.empty_union] at rebuilt
  have exist : ∀ path ∈ visitedPaths walk, (files path).isSome := by
    rintro _ ⟨attempt, member, rfl⟩
    obtain ⟨content, held, _⟩ := walks.held member
    rw [held]
    rfl
  refine ⟨db, ?_, rebuilt⟩
  rw [runRebuild, ingestOnce, ran]
  exact congrArg Except.ok (rebuilt.cleanup exist)

/-- Which paths are candidates does not depend on the order of the walk. -/
theorem candidates_visitedPaths {walk : List (Except String PathAttempt)}
    (walks : WalksTree archiveRoot files walk) (group : String × String) :
    candidates crates archiveRoot files (visitedPaths walk) group =
      candidates crates archiveRoot files {path | extension path = some "jsonl"} group := by
  ext path
  refine and_congr_left fun ⟨file, content, identified, _, held, _⟩ => ⟨?_, fun jsonl => ?_⟩
  · rintro ⟨attempt, member, rfl⟩
    exact (mem_scannedPaths.mp member).2
  · exact walks.attempted held (isSome_streamMonthFilename identified) jsonl

/-- A caption row without its id. -/
def CaptionRow.anonymous (row : CaptionRow) : CaptionRow := { row with id := 0 }

/-- The program ids of one database renamed give the rows of the other; the ids of caption lines
are not compared. -/
structure Renames (rename : ℕ → ℕ) (first second : SearchDb) : Prop where
  programs : (first.programs.map fun row => { row with id := rename row.id }).Perm second.programs
  genres : (first.programGenres.map fun row =>
    { row with programId := rename row.programId }).Perm second.programGenres
  captions : ((first.captionLines.map CaptionRow.anonymous).map fun row =>
    { row with programId := rename row.programId }).Perm
      (second.captionLines.map CaptionRow.anonymous)

/-- The same programs, genres and captions up to row ids. -/
def SameContents (first second : SearchDb) : Prop := ∃ rename, Renames rename first second

/-- Maps between two lists without repetition that undo each other match the lists. -/
theorem perm_map_of_inverse {α β : Type*} {left : List α} {right : List β} {f : α → β} {g : β → α}
    (nodup : left.Nodup) (nodup' : right.Nodup) (forward : ∀ item ∈ left, f item ∈ right)
    (backward : ∀ item ∈ right, g item ∈ left) (undo : ∀ item ∈ left, g (f item) = item)
    (redo : ∀ item ∈ right, f (g item) = item) : (left.map f).Perm right := by
  have mapped : (left.map f).Nodup := by
    apply nodup.map_on
    intro first here second there same
    rw [← undo first here, same, undo second there]
  apply (List.perm_ext_iff_of_nodup mapped nodup').mpr
  refine fun item => ⟨fun member => ?_, fun member => ?_⟩
  · obtain ⟨source, there, rfl⟩ := List.mem_map.mp member
    exact forward source there
  · exact List.mem_map.mpr ⟨g item, backward item member, redo item member⟩

/-- The programs of one database stand in the other under new ids. -/
def Embeds (rename : ℕ → ℕ) (first second : SearchDb) : Prop :=
  ∀ program ∈ first.programs, { program with id := rename program.id } ∈ second.programs

namespace Rebuilt

variable {first second : SearchDb} {others : Set String} {rename back : ℕ → ℕ}

/-- Programs of one path amount to the same file. -/
theorem exists_index (here : Rebuilt crates archiveRoot files paths first)
    (there : Rebuilt crates archiveRoot files others second) {program twin : ProgramRow}
    (member : program ∈ first.programs) (member' : twin ∈ second.programs)
    (path : twin.path = program.path) :
    ∃ index, HasProgram crates.unicode first program.toFileIdentity program.id index ∧
      HasProgram crates.unicode second twin.toFileIdentity twin.id index := by
  obtain ⟨content, index, held, read, has⟩ := here.shown program member
  obtain ⟨content', index', held', read', has'⟩ := there.shown twin member'
  rw [path, held] at held'
  cases held'
  rw [read, Option.some.injEq] at read'
  exact ⟨index, has, read' ▸ has'⟩

/-- Every program stands in both databases. -/
theorem exists_twin (here : Rebuilt crates archiveRoot files paths first)
    (there : Rebuilt crates archiveRoot files others second)
    (same : ∀ group, candidates crates archiveRoot files paths group =
      candidates crates archiveRoot files others group)
    {program : ProgramRow} (member : program ∈ first.programs) :
    ∃ id, { program with id } ∈ second.programs := by
  have greatest := here.greatest program member
  rw [same] at greatest
  obtain ⟨twin, member', group⟩ := there.present _ ⟨_, greatest.1⟩
  have path : twin.path = program.path := (group ▸ there.greatest twin member').unique greatest
  have identity : twin.toFileIdentity = program.toFileIdentity := by
    have known := there.formed.linked.identified twin member'
    rw [path, here.formed.linked.identified program member, Option.some.injEq] at known
    exact known.symm
  obtain ⟨index, has, has'⟩ := here.exists_index there member member' path
  have own := here.formed.tables.programIds.eq_of_key has.program member rfl
  rw [identity] at has'
  refine ⟨twin.id, ?_⟩
  rw [← own]
  exact has'.program

theorem exists_embeds (here : Rebuilt crates archiveRoot files paths first)
    (there : Rebuilt crates archiveRoot files others second)
    (same : ∀ group, candidates crates archiveRoot files paths group =
      candidates crates archiveRoot files others group) :
    ∃ rename, Embeds rename first second := by
  have renames (id : ℕ) : ∃ new, ∀ program ∈ first.programs, program.id = id →
      { program with id := new } ∈ second.programs := by
    by_cases used : ∃ program ∈ first.programs, program.id = id
    · obtain ⟨program, member, rfl⟩ := used
      obtain ⟨new, twin⟩ := here.exists_twin there same member
      refine ⟨new, fun other present equal => ?_⟩
      rwa [here.formed.tables.programIds.eq_of_key present member equal]
    · exact ⟨0, fun program member equal => absurd ⟨program, member, equal⟩ used⟩
  choose rename twin using renames
  exact ⟨rename, fun program member => twin _ program member rfl⟩

/-- Going there and back leads to the same program. -/
theorem back_rename (here : Rebuilt crates archiveRoot files paths first)
    (forward : Embeds rename first second) (backward : Embeds back second first)
    {id : ℕ} (used : ∃ program ∈ first.programs, program.id = id) : back (rename id) = id := by
  obtain ⟨program, member, rfl⟩ := used
  have twin := backward _ (forward program member)
  exact congrArg ProgramRow.id
    (here.formed.linked.program_eq here.formed.tables twin member rfl)

/-- The genres of a program are those of its twin. -/
theorem mem_programGenres (here : Rebuilt crates archiveRoot files paths first)
    (there : Rebuilt crates archiveRoot files others second) (forward : Embeds rename first second)
    {row : GenreRow} (member : row ∈ first.programGenres) :
    { row with programId := rename row.programId } ∈ second.programGenres := by
  obtain ⟨program, present, same⟩ := here.formed.linked.genreOwner row member
  obtain ⟨index, has, has'⟩ := here.exists_index there present (forward program present) rfl
  obtain ⟨id, genre⟩ := row
  obtain rfl : program.id = id := same
  exact (has'.genres genre).mpr ((has.genres genre).mp member)

/-- The captions of a program are those of its twin. -/
theorem mem_captionLines (here : Rebuilt crates archiveRoot files paths first)
    (there : Rebuilt crates archiveRoot files others second) (forward : Embeds rename first second)
    {row : CaptionRow} (member : row ∈ first.captionLines.map CaptionRow.anonymous) :
    { row with programId := rename row.programId } ∈
      second.captionLines.map CaptionRow.anonymous := by
  obtain ⟨row, stored, rfl⟩ := List.mem_map.mp member
  obtain ⟨program, present, same, _⟩ := here.formed.linked.captionOwner row stored
  obtain ⟨index, has, has'⟩ := here.exists_index there present (forward program present) rfl
  have listed : row.indexed ∈ index.captions := by
    rw [← has.captions]
    exact List.mem_map_of_mem (List.mem_filter.mpr ⟨stored, decide_eq_true same.symm⟩)
  rw [← has'.captions] at listed
  obtain ⟨twin, inside, equal⟩ := List.mem_map.mp listed
  obtain ⟨member', own⟩ := List.mem_filter.mp inside
  have text := here.formed.tables.captionTexts row stored
  have text' := there.formed.tables.captionTexts twin member'
  refine List.mem_map.mpr ⟨twin, member', ?_⟩
  obtain ⟨id, programId, lineNo, byteOffset, caption, normalizedText⟩ := row
  obtain ⟨id', programId', lineNo', byteOffset', caption', normalizedText'⟩ := twin
  simp only [CaptionRow.indexed, IndexedCaption.mk.injEq] at equal
  obtain ⟨rfl, rfl, rfl⟩ := equal
  obtain rfl : program.id = programId := same
  obtain rfl : programId' = rename program.id := of_decide_eq_true own
  simp only [CaptionRow.IsNormalized] at text text'
  simp only [CaptionRow.anonymous, text, text']

theorem nodup_captionLines (here : Rebuilt crates archiveRoot files paths first) :
    (first.captionLines.map CaptionRow.anonymous).Nodup := by
  have keys : (first.captionLines.map CaptionRow.anonymous).map CaptionRow.key =
      first.captionLines.map CaptionRow.key := by
    rw [List.map_map]
    rfl
  exact List.Nodup.of_map CaptionRow.key (keys ▸ here.formed.tables.captionKeys)

/-- Databases with twins of all programs both ways have the same contents. -/
theorem renames (here : Rebuilt crates archiveRoot files paths first)
    (there : Rebuilt crates archiveRoot files others second) (forward : Embeds rename first second)
    (backward : Embeds back second first) : Renames rename first second where
  programs := by
    refine perm_map_of_inverse (g := fun row => { row with id := back row.id })
      (List.Nodup.of_map _ here.formed.tables.programIds)
      (List.Nodup.of_map _ there.formed.tables.programIds) forward backward ?_ ?_
    · intro program member
      simp only [here.back_rename forward backward ⟨program, member, rfl⟩]
    · intro program member
      simp only [there.back_rename backward forward ⟨program, member, rfl⟩]
  genres := by
    refine perm_map_of_inverse (g := fun row => { row with programId := back row.programId })
      here.formed.tables.genreRows there.formed.tables.genreRows
      (fun _ => here.mem_programGenres there forward)
      (fun _ => there.mem_programGenres here backward) ?_ ?_
    · intro row member
      simp only [here.back_rename forward backward (here.formed.linked.genreOwner row member)]
    · intro row member
      simp only [there.back_rename backward forward (there.formed.linked.genreOwner row member)]
  captions := by
    refine perm_map_of_inverse (g := fun row => { row with programId := back row.programId })
      here.nodup_captionLines there.nodup_captionLines
      (fun _ => here.mem_captionLines there forward)
      (fun _ => there.mem_captionLines here backward) ?_ ?_
    · intro row member
      obtain ⟨row, stored, rfl⟩ := List.mem_map.mp member
      obtain ⟨program, present, same, _⟩ := here.formed.linked.captionOwner row stored
      simp only [CaptionRow.anonymous, here.back_rename forward backward ⟨program, present, same⟩]
    · intro row member
      obtain ⟨row, stored, rfl⟩ := List.mem_map.mp member
      obtain ⟨program, present, same, _⟩ := there.formed.linked.captionOwner row stored
      simp only [CaptionRow.anonymous, there.back_rename backward forward ⟨program, present, same⟩]

end Rebuilt

/-- Two orders in which the directory walk yields the files of a tree rebuild the same index. -/
theorem rebuild_is_order_independent {walk other : List (Except String PathAttempt)}
    (walks : WalksTree archiveRoot files walk) (walks' : WalksTree archiveRoot files other) :
    ∃ first second, runRebuild crates archiveRoot walk files.tryExists = .ok first ∧
      runRebuild crates archiveRoot other files.tryExists = .ok second ∧
        SameContents first second := by
  have rebuilt {walk : List (Except String PathAttempt)}
      (walks : WalksTree archiveRoot files walk) :
      ∃ db, runRebuild crates archiveRoot walk files.tryExists = .ok db ∧
        Rebuilt crates archiveRoot files (visitedPaths walk) db := runRebuild_rebuilt walks
  obtain ⟨first, ran, here⟩ := rebuilt walks
  obtain ⟨second, ran', there⟩ := rebuilt walks'
  have same (group : String × String) :
      candidates crates archiveRoot files (visitedPaths walk) group =
        candidates crates archiveRoot files (visitedPaths other) group := by
    rw [candidates_visitedPaths walks, candidates_visitedPaths walks']
  obtain ⟨rename, forward⟩ := here.exists_embeds there same
  obtain ⟨back, backward⟩ := there.exists_embeds here fun group => (same group).symm
  exact ⟨first, second, ran, ran', rename, here.renames there forward backward⟩

namespace Sample

/-- A file that no walk comes to. -/
def strayPath : String := "data/archive/nhk/2026-07-01_12-00-01.news.jsonl"

/-- The greater file of the group has no present EIT. -/
def rebuildFiles : FileSystem := fun path =>
  if path = smallPath then some (.file newsFile)
  else if path = greatPath then some (.file (lineBytes captionLine))
  else if path = strayPath then some (.file newsFile)
  else none

def rebuildWalk : List (Except String PathAttempt) :=
  [.ok ⟨smallPath, prefixAccess newsFile 0, true⟩,
    .ok ⟨greatPath, prefixAccess (lineBytes captionLine) 0, true⟩]

/-- Any order of the two files of the month is a walk of the tree. -/
theorem walksTree_rebuild {walk : List (Except String PathAttempt)}
    (order : walk.Perm rebuildWalk) : WalksTree "data/archive" rebuildFiles walk := by
  have different : greatPath ≠ smallPath := by decide
  refine ⟨fun entry member => ?_, fun path content present below => ?_, ?_⟩
  · have listed := order.mem_iff.mp member
    rw [rebuildWalk, List.mem_cons, List.mem_singleton] at listed
    rcases listed with rfl | rfl
    · exact ⟨_, newsFile, rfl, if_pos rfl, rfl, 0, rfl⟩
    · refine ⟨_, lineBytes captionLine, rfl, ?_, rfl, 0, rfl⟩
      rw [rebuildFiles, if_neg different, if_pos rfl]
  · unfold rebuildFiles at present
    split at present
    · next own => exact ⟨_, order.mem_iff.mpr List.mem_cons_self, own.symm⟩
    · split at present
      · next own =>
          exact ⟨_, order.mem_iff.mpr (List.mem_cons_of_mem _ List.mem_cons_self), own.symm⟩
      · split at present
        · next own =>
            rw [own, show streamMonthFilename "data/archive" strayPath = none by decide] at below
            cases below
        · cases present
  · refine ((order.filterMap Except.toOption).pairwise_iff fun apart => apart.symm).mpr ?_
    simp [rebuildWalk, Except.toOption, different.symm]

end Sample

/-- The group goes to the smaller file, whichever file comes first. -/
theorem rebuild_is_order_independent_sample :
    ((runRebuild Sample.crates "data/archive" Sample.rebuildWalk
        Sample.rebuildFiles.tryExists).toOption.map fun db : SearchDb =>
          (db.programs.map (·.path), db.captionLines.length)) = some ([Sample.smallPath], 1) ∧
      ∃ first second,
        runRebuild Sample.crates "data/archive" Sample.rebuildWalk
            Sample.rebuildFiles.tryExists = .ok first ∧
          runRebuild Sample.crates "data/archive" Sample.rebuildWalk.reverse
            Sample.rebuildFiles.tryExists = .ok second ∧ SameContents first second :=
  ⟨by decide +kernel, rebuild_is_order_independent (Sample.walksTree_rebuild (.refl _))
    (Sample.walksTree_rebuild (List.reverse_perm _))⟩

end AribcapDb
