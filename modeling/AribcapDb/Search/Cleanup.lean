import AribcapDb.Search.Invariant

/-! # Cleaning up after deleted files

`cleanup_index_for_deleted_files` asks for each indexed path whether there is a file, and deletes
the rows of the others in one transaction. An answer that cannot be determined counts as "no file",
so an I/O error removes the rows of a file that is there (`unreadable_file_loses_its_rows`).
Otherwise exactly the rows of the missing files are removed (`cleanup_removes_missing_iff`). -/

namespace AribcapDb

/-- The constraints and the triggers of the schema. -/
structure SatisfiesSchema (db : SearchDb) : Prop where
  programIds : Table.Unique ProgramRow.id db.programs
  programPaths : Table.Unique (fun row : ProgramRow => row.path) db.programs
  programGroups : Table.Unique (fun row : ProgramRow => row.group) db.programs
  genreRows : db.programGenres.Nodup
  captionIds : Table.Unique CaptionRow.id db.captionLines
  captionKeys : Table.Unique CaptionRow.key db.captionLines
  filePaths : Table.Unique IndexedFileRow.path db.indexedFiles
  genreProgram : ∀ row ∈ db.programGenres, ∃ program ∈ db.programs, program.id = row.programId
  captionProgram : ∀ row ∈ db.captionLines, ∃ program ∈ db.programs, program.id = row.programId
  fileProgram : ∀ row ∈ db.indexedFiles, ∀ id ∈ row.programId,
    ∃ program ∈ db.programs, program.id = id
  programIndex : Table.Synced programEntry db.programs db.programFts
  captionIndex : Table.Synced captionEntry db.captionLines db.captionFts

/-- `delete_indexed_path` within a transaction, whose first statement has the given number; `none`
is a failed statement. -/
def tryDeleteIndexedPath (succeeds : ℕ → Bool) (statement : ℕ) (tx : SearchDb) (path : String) :
    Option SearchDb :=
  if succeeds statement then
    if succeeds (statement + 1) then some (tx.deleteIndexedPath path) else none
  else none

/-- `!try_exists(&path).await.unwrap_or(false)`. -/
def takenForMissing (tryExists : String → Option Bool) (path : String) : Bool :=
  !(tryExists path).getD false

/-- The loop of `cleanup_index_for_deleted_files`: the number of the next statement, the number of
removed paths and the uncommitted database. -/
def cleanupPaths (succeeds : ℕ → Bool) (tryExists : String → Option Bool) (statement removed : ℕ)
    (tx : SearchDb) : List String → Option (ℕ × ℕ × SearchDb)
  | [] => some (statement, removed, tx)
  | path :: rest =>
      if takenForMissing tryExists path then
        match tryDeleteIndexedPath succeeds statement tx path with
        | none => none
        | some tx => cleanupPaths succeeds tryExists (statement + 2) (removed + 1) tx rest
      else cleanupPaths succeeds tryExists statement removed tx rest

namespace SearchDb

/-- `cleanup_index_for_deleted_files` when only some of its statements succeed: its answer, `none`
for an error, and the database after it. The first statement asks for the paths, the second one
begins the transaction, and the last one commits it; an uncommitted transaction is rolled back. -/
def runCleanup (db : SearchDb) (succeeds : ℕ → Bool) (tryExists : String → Option Bool) :
    Option ℕ × SearchDb :=
  if !succeeds 0 then (none, db)
  else if !succeeds 1 then (none, db)
  else
    match cleanupPaths succeeds tryExists 2 0 db db.indexedPaths with
    | none => (none, db)
    | some (statement, removed, tx) =>
        if succeeds statement then (some removed, tx) else (none, db)

/-- The paths that the cleanup takes for missing. -/
def missingPaths (db : SearchDb) (tryExists : String → Option Bool) : List String :=
  db.indexedPaths.filter (takenForMissing tryExists)

/-- The number of statements of a cleanup. -/
def cleanupStatements (db : SearchDb) (tryExists : String → Option Bool) : ℕ :=
  3 + 2 * (db.missingPaths tryExists).length

/-- The program with the id has one of the paths. -/
def hasProgramAt (db : SearchDb) (gone : String → Bool) (id : ℕ) : Bool :=
  db.programs.any fun program => gone program.path && program.id = id

/-- The database without the rows of some paths. -/
def withoutPaths (db : SearchDb) (gone : String → Bool) : SearchDb :=
  let programs := db.programs.filter fun program => !gone program.path
  let captionLines := db.captionLines.filter fun row => !db.hasProgramAt gone row.programId
  { programs
    programGenres := db.programGenres.filter fun row => !db.hasProgramAt gone row.programId
    captionLines
    indexedFiles := db.indexedFiles.filter fun row => !gone row.path
    captionFts := captionLines.map captionEntry
    programFts := programs.map programEntry }

/-- Known to be absent. -/
def knownAbsent (tryExists : String → Option Bool) (path : String) : Bool :=
  tryExists path = some false

/-- A cleanup removes exactly the rows of the paths that are known to be absent and returns their
number, or it fails and changes nothing. -/
def RemovesMissing (db : SearchDb) (tryExists : String → Option Bool)
    (result : Option ℕ × SearchDb) : Prop :=
  match result.1 with
  | some removed => removed = (db.indexedPaths.filter (knownAbsent tryExists)).length ∧
      result.2 = db.withoutPaths (knownAbsent tryExists)
  | none => result.2 = db

/-- No row of a path that stays refers to the program of a path that is known to be absent. -/
def ReferencesStay (db : SearchDb) (tryExists : String → Option Bool) : Prop :=
  ∀ row ∈ db.indexedFiles, knownAbsent tryExists row.path = false →
    ∀ program ∈ db.programs, row.programId = some program.id →
      knownAbsent tryExists program.path = false

end SearchDb

section Delete

variable {db : SearchDb}

/-- The references to programs at the paths are released. -/
def SearchDb.release (db : SearchDb) (gone : String → Bool) (row : IndexedFileRow) :
    IndexedFileRow :=
  if row.programId.any (db.hasProgramAt gone) then { row with programId := none } else row

/-- The database without the rows of some paths and without references to their programs. -/
def SearchDb.releasePaths (db : SearchDb) (gone : String → Bool) : SearchDb :=
  { db.withoutPaths gone with
    indexedFiles := (db.withoutPaths gone).indexedFiles.map (db.release gone) }

/-- Deleting a path. -/
theorem deleteIndexedPath_eq (programs : Table.Synced programEntry db.programs db.programFts)
    (captions : Table.Synced captionEntry db.captionLines db.captionFts) (path : String) :
    db.deleteIndexedPath path = db.releasePaths fun other => other = path := by
  have files : (Table.update (fun row : IndexedFileRow =>
      row.programId.any (db.hasProgramAt fun other => other = path))
        (fun row => { row with programId := none }) db.indexedFiles).filter
          (fun row => !decide (row.path = path)) =
      (db.indexedFiles.filter fun row => !decide (row.path = path)).map fun row =>
        if row.programId.any (db.hasProgramAt fun other => other = path) then
          { row with programId := none }
        else row := by
    rw [Table.update, List.filter_map]
    congr 1
    apply List.filter_congr
    intro row _
    simp only [Function.comp_apply]
    split <;> rfl
  have programFts := programs.delete fun row => decide (row.path = path)
  have captionFts := captions.delete fun row =>
    db.hasProgramAt (fun other => decide (other = path)) row.programId
  unfold Table.Synced at programFts captionFts
  simp only [SearchDb.deleteIndexedPath, SearchDb.deletePrograms, SearchDb.deleteIndexedFiles,
    SearchDb.updateIndexedFiles, SearchDb.deleteCaptions, SearchDb.deleteGenres,
    SearchDb.releasePaths, SearchDb.withoutPaths, SearchDb.mk.injEq]
  exact ⟨trivial, rfl, rfl, files, captionFts, programFts⟩

/-- A program is at one of two kinds of paths when it is at one of the first, or is left and at one
of the second. -/
theorem hasProgramAt_or (first second : String → Bool) (id : ℕ) :
    db.hasProgramAt (fun path => first path || second path) id =
      (db.hasProgramAt first id || (db.releasePaths first).hasProgramAt second id) := by
  rw [Bool.eq_iff_iff]
  simp only [SearchDb.hasProgramAt, SearchDb.releasePaths, SearchDb.withoutPaths, List.any_eq_true,
    List.mem_filter, Bool.or_eq_true, Bool.and_eq_true, decide_eq_true_eq, Bool.not_eq_true']
  constructor
  · rintro ⟨program, member, gone, own⟩
    cases early : first program.path with
    | true => exact .inl ⟨program, member, early, own⟩
    | false =>
        rw [early] at gone
        exact .inr ⟨program, ⟨member, early⟩, gone.resolve_left Bool.false_ne_true, own⟩
  · rintro (⟨program, member, gone, own⟩ | ⟨program, ⟨member, _⟩, gone, own⟩)
    · exact ⟨program, member, .inl gone, own⟩
    · exact ⟨program, member, .inr gone, own⟩

theorem filter_not_or {α : Type*} (rows : List α) (first second : α → Bool) :
    (rows.filter fun row => !first row).filter (fun row => !second row) =
      rows.filter fun row => !(first row || second row) := by
  rw [List.filter_filter]
  apply List.filter_congr
  intro row _
  rw [Bool.not_or, Bool.and_comm]

theorem path_release (gone : String → Bool) (row : IndexedFileRow) :
    (db.release gone row).path = row.path := by
  unfold SearchDb.release
  split <;> rfl

theorem release_release (first second : String → Bool) (row : IndexedFileRow) :
    (db.releasePaths first).release second (db.release first row) =
      db.release (fun path => first path || second path) row := by
  unfold SearchDb.release
  cases known : row.programId with
  | none => simp [known]
  | some id =>
      simp only [Option.any_some, hasProgramAt_or]
      by_cases early : db.hasProgramAt first id = true <;> simp [known, early]

/-- Removing some paths and then others. -/
theorem releasePaths_releasePaths (first second : String → Bool) :
    (db.releasePaths first).releasePaths second =
      db.releasePaths fun path => first path || second path := by
  have programs : (db.programs.filter fun program => !first program.path).filter
      (fun program => !second program.path) =
        db.programs.filter fun program => !(first program.path || second program.path) :=
    filter_not_or db.programs _ _
  have captions : (db.captionLines.filter fun row => !db.hasProgramAt first row.programId).filter
      (fun row => !(db.releasePaths first).hasProgramAt second row.programId) =
        db.captionLines.filter fun row =>
          !db.hasProgramAt (fun path => first path || second path) row.programId := by
    simp only [hasProgramAt_or]
    exact filter_not_or db.captionLines _ _
  have genres : (db.programGenres.filter fun row => !db.hasProgramAt first row.programId).filter
      (fun row => !(db.releasePaths first).hasProgramAt second row.programId) =
        db.programGenres.filter fun row =>
          !db.hasProgramAt (fun path => first path || second path) row.programId := by
    simp only [hasProgramAt_or]
    exact filter_not_or db.programGenres _ _
  have files : (((db.indexedFiles.filter fun row => !first row.path).map
      (db.release first)).filter fun row => !second row.path).map
        ((db.releasePaths first).release second) =
      (db.indexedFiles.filter fun row => !(first row.path || second row.path)).map
        (db.release fun path => first path || second path) := by
    rw [List.filter_map, List.map_map, ← filter_not_or db.indexedFiles]
    have paths : ((fun row : IndexedFileRow => !second row.path) ∘ db.release first) =
        fun row => !second row.path := by
      funext row
      rw [Function.comp_apply, path_release]
    rw [paths]
    exact List.map_congr_left fun row _ => release_release first second row
  refine SearchDb.mk.injEq .. |>.mpr ⟨programs, genres, captions, files, ?_, ?_⟩
  · exact congrArg (fun rows => Multiset.ofList (List.map captionEntry rows)) captions
  · exact congrArg (fun rows => Multiset.ofList (List.map programEntry rows)) programs

/-- Removing no path. -/
theorem releasePaths_none (programs : Table.Synced programEntry db.programs db.programFts)
    (captions : Table.Synced captionEntry db.captionLines db.captionFts) :
    db.releasePaths (fun _ => false) = db := by
  have none (id : ℕ) : db.hasProgramAt (fun _ => false) id = false := by
    simp [SearchDb.hasProgramAt]
  have files : db.indexedFiles.map (db.release fun _ => false) = db.indexedFiles := by
    have kept : db.release (fun _ => false) = id := by
      funext row
      have free : row.programId.any (db.hasProgramAt fun _ => false) = false := by
        cases row.programId with
        | none => rfl
        | some id => exact none id
      rw [SearchDb.release, free]
      rfl
    rw [kept, List.map_id]
  unfold Table.Synced at programs captions
  simp only [SearchDb.releasePaths, SearchDb.withoutPaths, none, Bool.not_false, List.filter_true,
    files, ← programs, ← captions]

/-- Removing a list of paths one after the other. -/
theorem foldl_deleteIndexedPath (programs : Table.Synced programEntry db.programs db.programFts)
    (captions : Table.Synced captionEntry db.captionLines db.captionFts) (paths : List String) :
    paths.foldl SearchDb.deleteIndexedPath db =
      db.releasePaths fun path => path ∈ paths := by
  induction paths generalizing db with
  | nil =>
      simpa using (releasePaths_none programs captions).symm
  | cons path paths ih =>
      have first := deleteIndexedPath_eq programs captions path
      have rest :
          paths.foldl SearchDb.deleteIndexedPath (db.releasePaths fun other => other = path) =
            (db.releasePaths fun other => other = path).releasePaths fun other => other ∈ paths :=
        ih rfl rfl
      rw [List.foldl_cons, first, rest, releasePaths_releasePaths]
      congr 1
      funext other
      rw [Bool.eq_iff_iff, Bool.or_eq_true, decide_eq_true_eq, decide_eq_true_eq, decide_eq_true_eq,
        List.mem_cons]

end Delete

section Run

variable {db : SearchDb} {succeeds : ℕ → Bool} {tryExists : String → Option Bool}

/-- The loop deletes the missing paths when all of its statements succeed. -/
theorem cleanupPaths_eq (statement removed : ℕ) (tx : SearchDb) (paths : List String) :
    cleanupPaths succeeds tryExists statement removed tx paths =
      let missing := paths.filter (takenForMissing tryExists)
      if ∀ n < 2 * missing.length, succeeds (statement + n) = true then
        some (statement + 2 * missing.length, removed + missing.length,
          missing.foldl SearchDb.deleteIndexedPath tx)
      else none := by
  induction paths generalizing statement removed tx with
  | nil => simp [cleanupPaths]
  | cons path rest ih =>
      unfold cleanupPaths
      by_cases missing : takenForMissing tryExists path = true
      · rw [if_pos missing, List.filter_cons_of_pos missing, tryDeleteIndexedPath]
        have later : (∀ n < 2 * ((rest.filter (takenForMissing tryExists)).length + 1),
            succeeds (statement + n) = true) ↔ succeeds statement = true ∧
              succeeds (statement + 1) = true ∧
              ∀ n < 2 * (rest.filter (takenForMissing tryExists)).length,
                succeeds (statement + 2 + n) = true := by
          constructor
          · intro all
            refine ⟨all 0 (by omega), all 1 (by omega), fun n less => ?_⟩
            rw [Nat.add_assoc]
            exact all (2 + n) (by omega)
          · rintro ⟨zero, one, rest⟩ n less
            match n with
            | 0 => exact zero
            | 1 => exact one
            | n + 2 =>
                rw [Nat.add_comm n 2, ← Nat.add_assoc]
                exact rest n (by omega)
        by_cases zero : succeeds statement = true
        · by_cases one : succeeds (statement + 1) = true
          · simp only [zero, one, ↓reduceIte, ih, List.length_cons, later, true_and,
              List.foldl_cons]
            congr 1
            simp only [Option.some.injEq, Prod.mk.injEq, and_true]
            omega
          · simp [zero, one, later]
        · simp [zero, later]
      · rw [if_neg missing, List.filter_cons_of_neg missing, ih]

/-- A cleanup does everything when all statements succeed, and nothing otherwise. -/
theorem runCleanup_eq :
    db.runCleanup succeeds tryExists =
      if ∀ n < db.cleanupStatements tryExists, succeeds n = true then
        (some (db.missingPaths tryExists).length,
          (db.missingPaths tryExists).foldl SearchDb.deleteIndexedPath db)
      else (none, db) := by
  have statements : (∀ n < db.cleanupStatements tryExists, succeeds n = true) ↔
      succeeds 0 = true ∧ succeeds 1 = true ∧
        (∀ n < 2 * (db.missingPaths tryExists).length, succeeds (2 + n) = true) ∧
          succeeds (2 + 2 * (db.missingPaths tryExists).length) = true := by
    unfold SearchDb.cleanupStatements
    constructor
    · intro all
      exact ⟨all 0 (by omega), all 1 (by omega), fun n less => all (2 + n) (by omega),
        all _ (by omega)⟩
    · rintro ⟨zero, one, loop, commit⟩ n less
      match n with
      | 0 => exact zero
      | 1 => exact one
      | n + 2 =>
          rw [Nat.add_comm n 2]
          by_cases inside : n < 2 * (db.missingPaths tryExists).length
          · exact loop n inside
          · obtain rfl : n = 2 * (db.missingPaths tryExists).length := by omega
            exact commit
  have loop : cleanupPaths succeeds tryExists 2 0 db db.indexedPaths =
      if ∀ n < 2 * (db.missingPaths tryExists).length, succeeds (2 + n) = true then
        some (2 + 2 * (db.missingPaths tryExists).length, 0 + (db.missingPaths tryExists).length,
          (db.missingPaths tryExists).foldl SearchDb.deleteIndexedPath db)
      else none := cleanupPaths_eq 2 0 db db.indexedPaths
  rw [SearchDb.runCleanup, loop, Nat.zero_add]
  by_cases zero : succeeds 0 = true
  · by_cases one : succeeds 1 = true
    · by_cases inside : ∀ n < 2 * (db.missingPaths tryExists).length, succeeds (2 + n) = true
      · rw [if_pos inside]
        by_cases commit : succeeds (2 + 2 * (db.missingPaths tryExists).length) = true
        · rw [if_pos (statements.mpr ⟨zero, one, inside, commit⟩)]
          simp [zero, one, commit]
        · rw [if_neg fun all => commit (statements.mp all).2.2.2]
          simp [zero, one, commit]
      · rw [if_neg inside, if_neg fun all => inside (statements.mp all).2.2.1]
        simp [zero, one]
    · simp [zero, one, statements]
  · simp [zero, statements]

/-- Removing what is known to be absent, without a reference to it that stays. -/
theorem releasePaths_eq_withoutPaths_iff (gone : String → Bool) :
    db.releasePaths gone = db.withoutPaths gone ↔
      ∀ row ∈ db.indexedFiles, gone row.path = false →
        ∀ program ∈ db.programs, row.programId = some program.id → gone program.path = false := by
  have files : db.releasePaths gone = db.withoutPaths gone ↔
      ∀ row ∈ db.indexedFiles.filter (fun row => !gone row.path), db.release gone row = row := by
    have maps : (db.indexedFiles.filter fun row => !gone row.path).map (db.release gone) =
        db.indexedFiles.filter (fun row => !gone row.path) ↔
          ∀ row ∈ db.indexedFiles.filter (fun row => !gone row.path),
            db.release gone row = row := by
      conv_lhs => rhs; rw [← List.map_id (db.indexedFiles.filter fun row => !gone row.path)]
      exact List.map_inj_left
    rw [← maps]
    constructor
    · exact fun same => congrArg SearchDb.indexedFiles same
    · intro same
      rw [SearchDb.releasePaths, SearchDb.withoutPaths]
      exact SearchDb.mk.injEq .. |>.mpr ⟨rfl, rfl, rfl, same, rfl, rfl⟩
  have kept (row : IndexedFileRow) : db.release gone row = row ↔
      ∀ program ∈ db.programs, row.programId = some program.id → gone program.path = false := by
    unfold SearchDb.release
    cases known : row.programId with
    | none => simp
    | some id =>
        rw [Option.any_some]
        cases found : db.hasProgramAt gone id with
        | true =>
            obtain ⟨program, member, both⟩ := List.any_eq_true.mp found
            rw [Bool.and_eq_true, decide_eq_true_eq] at both
            refine iff_of_false (fun same => ?_) fun free => ?_
            · have released := congrArg IndexedFileRow.programId same
              rw [known] at released
              cases released
            · rw [free program member (by rw [both.2])] at both
              exact absurd both.1 (by decide)
        | false =>
            apply iff_of_true rfl
            intro program member own
            have absent := List.any_eq_false.mp found program member
            rw [Option.some.inj own] at absent
            simpa using absent
  rw [files]
  constructor
  · intro all row member stays
    exact (kept row).mp (all row (List.mem_filter.mpr ⟨member, by rw [stays]; rfl⟩))
  · intro all row member
    obtain ⟨stored, stays⟩ := List.mem_filter.mp member
    exact (kept row).mpr (all row stored (by simpa using stays))

/-- An indexed path has a row. -/
theorem mem_indexedPaths {path : String} :
    path ∈ db.indexedPaths ↔ (∃ program ∈ db.programs, program.path = path) ∨
      ∃ row ∈ db.indexedFiles, row.path = path := by
  simp [SearchDb.indexedPaths]

/-- Only what is said about indexed paths matters. -/
theorem releasePaths_congr {first second : String → Bool}
    (same : ∀ path ∈ db.indexedPaths, first path = second path) :
    db.releasePaths first = db.releasePaths second := by
  have programs : ∀ program ∈ db.programs, first program.path = second program.path :=
    fun program member => same _ (mem_indexedPaths.mpr (.inl ⟨program, member, rfl⟩))
  have files : ∀ row ∈ db.indexedFiles, first row.path = second row.path :=
    fun row member => same _ (mem_indexedPaths.mpr (.inr ⟨row, member, rfl⟩))
  have has : db.hasProgramAt first = db.hasProgramAt second := by
    funext id
    rw [Bool.eq_iff_iff, SearchDb.hasProgramAt, SearchDb.hasProgramAt, List.any_eq_true,
      List.any_eq_true]
    refine exists_congr fun program => and_congr_right fun member => ?_
    rw [programs program member]
  have release : db.release first = db.release second := by
    unfold SearchDb.release
    rw [has]
  have left : db.programs.filter (fun program => !first program.path) =
      db.programs.filter fun program => !second program.path :=
    List.filter_congr fun program member => by rw [programs program member]
  have rows : db.indexedFiles.filter (fun row => !first row.path) =
      db.indexedFiles.filter fun row => !second row.path :=
    List.filter_congr fun row member => by rw [files row member]
  rw [SearchDb.releasePaths, SearchDb.releasePaths, SearchDb.withoutPaths, SearchDb.withoutPaths,
    has, release, left, rows]

/-- A path whose existence is undetermined loses its rows. -/
theorem determined_of_removesMissing (schema : SatisfiesSchema db)
    (removes : (db.missingPaths tryExists).foldl SearchDb.deleteIndexedPath db =
      db.withoutPaths (SearchDb.knownAbsent tryExists)) :
    ∀ path ∈ db.indexedPaths, tryExists path ≠ none := by
  intro path indexed undetermined
  have missing : path ∈ db.missingPaths tryExists :=
    List.mem_filter.mpr ⟨indexed, by rw [takenForMissing, undetermined]; rfl⟩
  have stays : SearchDb.knownAbsent tryExists path = false := by
    rw [SearchDb.knownAbsent, undetermined]
    rfl
  rw [foldl_deleteIndexedPath schema.programIndex schema.captionIndex] at removes
  rcases mem_indexedPaths.mp indexed with ⟨program, member, rfl⟩ | ⟨row, member, rfl⟩
  · have kept : program ∈ (db.withoutPaths (SearchDb.knownAbsent tryExists)).programs :=
      List.mem_filter.mpr ⟨member, by rw [stays]; rfl⟩
    rw [← removes] at kept
    have left := (List.mem_filter.mp kept).2
    simp [missing] at left
  · have kept : row ∈ (db.withoutPaths (SearchDb.knownAbsent tryExists)).indexedFiles :=
      List.mem_filter.mpr ⟨member, by rw [stays]; rfl⟩
    rw [← removes] at kept
    obtain ⟨other, left, same⟩ := List.mem_map.mp kept
    have unchanged : (db.release (fun path => path ∈ db.missingPaths tryExists) other).path =
        other.path := path_release _ other
    have path := unchanged.symm.trans (congrArg IndexedFileRow.path same)
    have absent := (List.mem_filter.mp left).2
    simp [path, missing] at absent

/-- With every answer known, the paths taken for missing are those known to be absent. -/
theorem takenForMissing_eq {path : String} (known : tryExists path ≠ none) :
    takenForMissing tryExists path = SearchDb.knownAbsent tryExists path := by
  unfold takenForMissing SearchDb.knownAbsent
  obtain ⟨answer, found⟩ := Option.ne_none_iff_exists'.mp known
  rw [found]
  cases answer <;> rfl

end Run

/-- A cleanup removes exactly the rows of the missing files when the existence of every indexed path
can be determined and no row that stays refers to a program of a missing file, or fails and changes
nothing. -/
theorem cleanup_removes_missing_iff {db : SearchDb} (schema : SatisfiesSchema db)
    (succeeds : ℕ → Bool) (tryExists : String → Option Bool) :
    db.RemovesMissing tryExists (db.runCleanup succeeds tryExists) ↔
      (∃ statement < db.cleanupStatements tryExists, succeeds statement = false) ∨
        (∀ path ∈ db.indexedPaths, tryExists path ≠ none) ∧ db.ReferencesStay tryExists := by
  rw [runCleanup_eq]
  by_cases all : ∀ n < db.cleanupStatements tryExists, succeeds n = true
  · have none : ¬ ∃ statement < db.cleanupStatements tryExists, succeeds statement = false := by
      rintro ⟨statement, less, failed⟩
      rw [all statement less] at failed
      cases failed
    rw [if_pos all, or_iff_right none]
    have known (determined : ∀ path ∈ db.indexedPaths, tryExists path ≠ .none) :
        db.missingPaths tryExists = db.indexedPaths.filter (SearchDb.knownAbsent tryExists) ∧
          (db.missingPaths tryExists).foldl SearchDb.deleteIndexedPath db =
            db.releasePaths (SearchDb.knownAbsent tryExists) := by
      have missing : db.missingPaths tryExists =
          db.indexedPaths.filter (SearchDb.knownAbsent tryExists) :=
        List.filter_congr fun path member => takenForMissing_eq (determined path member)
      refine ⟨missing, ?_⟩
      rw [foldl_deleteIndexedPath schema.programIndex schema.captionIndex, missing]
      apply releasePaths_congr
      intro path member
      simp [member]
    constructor
    · rintro ⟨_, removes⟩
      have determined := determined_of_removesMissing schema removes
      refine ⟨determined, (releasePaths_eq_withoutPaths_iff _).mp ?_⟩
      exact (known determined).2.symm.trans removes
    · rintro ⟨determined, references⟩
      obtain ⟨missing, removed⟩ := known determined
      refine ⟨congrArg List.length missing, removed.trans ?_⟩
      exact (releasePaths_eq_withoutPaths_iff _).mpr references
  · rw [if_neg all]
    refine iff_of_true rfl (.inl ?_)
    push Not at all
    obtain ⟨statement, less, failed⟩ := all
    exact ⟨statement, less, by simpa using failed⟩

/-- Every database that the indexer writes satisfies the schema, and the rows of a path refer to the
program of that path only. -/
theorem WellFormed.satisfiesSchema {crates : Crates} {archiveRoot : String} {db : SearchDb}
    (wellFormed : WellFormed crates archiveRoot db) :
    SatisfiesSchema db ∧ ∀ tryExists, db.ReferencesStay tryExists := by
  have tables := wellFormed.tables
  have linked := wellFormed.linked
  have indexed {row : IndexedFileRow} (member : row ∈ db.indexedFiles) :
      db.indexedFile row.path = some row :=
    wellFormed.files.find?_eq_some_iff.mpr ⟨member, rfl⟩
  constructor
  · refine ⟨tables.programIds, ?_, tables.programGroups, tables.genreRows, tables.captionIds,
      tables.captionKeys, wellFormed.files, linked.genreOwner, ?_, ?_, tables.programIndex,
      tables.captionIndex⟩
    · exact tables.programIds.of_map.map_on fun first here second there same =>
        linked.program_eq tables here there same
    · intro row member
      obtain ⟨program, present, same, _⟩ := linked.captionOwner row member
      exact ⟨program, present, same⟩
    · intro row member id known
      obtain ⟨program, present, same, _⟩ := linked.points row.path row id (indexed member) known
      exact ⟨program, present, same⟩
  · intro tryExists row member stays program present known
    obtain ⟨other, there, same, path⟩ :=
      linked.points row.path row program.id (indexed member) known
    obtain rfl := tables.programIds.eq_of_key there present same
    rw [path]
    exact stays

namespace Sample

/-- A recording of the next hour. -/
def laterPath : String := "data/archive/nhk/2026-07/2026-07-01_13-00-01.a.jsonl"

/-- Two recordings are indexed. -/
def twoRecordings : Except String SearchDb := do
  let first ← ingestFile Sample.crates "data/archive" .migrated smallPath (access newsFile)
  ingestFile Sample.crates "data/archive" first laterPath (access newsFile)

end Sample

/-- A program of a missing file is removed, and that of another file stays. -/
theorem cleanup_removes_missing_sample : ∃ db : SearchDb,
    db.indexedPaths = [Sample.smallPath, Sample.laterPath] ∧
      db.RemovesMissing (fun path => some (path = Sample.laterPath))
        (db.runCleanup (fun _ => true) fun path => some (path = Sample.laterPath)) ∧
      (db.runCleanup (fun _ => true) fun path => some (path = Sample.laterPath)).2.indexedPaths =
        [Sample.laterPath] := by
  have evaluates : Sample.twoRecordings.toOption.map (fun db => (db.indexedPaths,
      (db.runCleanup (fun _ => true) fun path =>
        some (path = Sample.laterPath)).2.indexedPaths)) =
          some ([Sample.smallPath, Sample.laterPath], [Sample.laterPath]) := by
    decide +kernel
  obtain ⟨db, visits, view⟩ := exists_ok_of_toOption_map evaluates
  obtain ⟨paths, left⟩ := Prod.mk.inj view
  obtain ⟨first, ran, again⟩ := exists_ok_of_bind visits
  have reachable : IndexReachable Sample.crates "data/archive" db :=
    .next (.next (.initial rfl) (.ingest _ _ ran)) (.ingest _ _ again)
  obtain ⟨schema, references⟩ := reachable.wellFormed.satisfiesSchema
  refine ⟨db, paths, (cleanup_removes_missing_iff schema _ _).mpr (.inr ⟨?_, references _⟩), left⟩
  exact fun _ _ => Option.some_ne_none _

/-- The rows of a file that cannot be looked at are removed. -/
theorem unreadable_file_loses_its_rows : ¬ ∀ (crates : Crates) (archiveRoot : String)
    (db : SearchDb), IndexReachable crates archiveRoot db → ∀ succeeds tryExists,
      db.RemovesMissing tryExists (db.runCleanup succeeds tryExists) := by
  intro claim
  have evaluates : (ingestFile Sample.crates "data/archive" .migrated Sample.smallPath
      (Sample.access Sample.newsFile)).toOption.map (fun db =>
        (db.runCleanup (fun _ => true) fun _ => none).1) = some (some 1) := by
    decide +kernel
  obtain ⟨db, ran, removed⟩ := exists_ok_of_toOption_map evaluates
  have reachable : IndexReachable Sample.crates "data/archive" db :=
    .next (.initial rfl) (.ingest _ _ ran)
  have removes := claim _ _ db reachable (fun _ => true) fun _ => none
  rw [SearchDb.RemovesMissing, removed] at removes
  have none : db.indexedPaths.filter (SearchDb.knownAbsent fun _ => .none) = [] :=
    List.filter_eq_nil_iff.mpr fun _ _ => by simp [SearchDb.knownAbsent]
  rw [none] at removes
  exact absurd removes.1 (by decide)

end AribcapDb
