import AribcapDb.Search.Frame

/-! # How far a file has been read

The row of an archive file stands for a prefix of the file (`ReadUpTo`), also after the file has
grown. A transaction brings the row up to what it has found in the file (`Ingested.progress`);
of its group it changes only who owns the program, and that only by taking it
(`Ingested.ownership`). -/

namespace AribcapDb

/-- Whether a line is a present EIT to the indexer. -/
def isPresentEitLine (serde : SerdeJson) (line : List UInt8) : Bool :=
  match lineRecord serde line with
  | .eit _ => true
  | _ => false

/-- Whether a complete line of a file is a present EIT. -/
def hasPresentEit (serde : SerdeJson) (content : List UInt8) : Bool :=
  (Framing.frames newline content).any (isPresentEitLine serde)

theorem hasPresentEit_append (serde : SerdeJson) (seen more : List UInt8) :
    hasPresentEit serde (seen ++ more) = (hasPresentEit serde seen ||
      (Framing.frames newline (Framing.residue newline seen ++ more)).any
        (isPresentEitLine serde)) := by
  unfold hasPresentEit
  rw [Framing.frames_append, List.any_append]

/-- The row of a file stands for the complete lines of what was seen of it. -/
structure Summarizes (serde : SerdeJson) (row : IndexedFileRow) (seen : List UInt8) : Prop where
  offset : row.indexedOffset = Framing.framedLength newline seen
  lines : row.indexedLines = (Framing.frames newline seen).length
  program : row.programId.isSome = hasPresentEit serde seen

/-- The row of a file stands for a prefix of its content. -/
def ReadUpTo (serde : SerdeJson) (row : IndexedFileRow) (content : List UInt8) : Prop :=
  ∃ seen, seen <+: content ∧ Summarizes serde row seen

/-- A row goes on standing for a prefix while the file grows. -/
theorem ReadUpTo.append {serde : SerdeJson} {row : IndexedFileRow} {content : List UInt8}
    (read : ReadUpTo serde row content) (more : List UInt8) :
    ReadUpTo serde row (content ++ more) := by
  obtain ⟨seen, before, summary⟩ := read
  exact ⟨seen, before.trans (List.prefix_append _ _), summary⟩

theorem ReadUpTo.offset_le {serde : SerdeJson} {row : IndexedFileRow} {content : List UInt8}
    (read : ReadUpTo serde row content) : row.indexedOffset ≤ content.length := by
  obtain ⟨seen, before, summary⟩ := read
  rw [summary.offset]
  exact (Framing.framedLength_le newline seen).trans before.length_le

/-- A position at the end of the content is the end of its last line. -/
theorem Summarizes.of_length {serde : SerdeJson} {row : IndexedFileRow}
    {seen content : List UInt8} (summary : Summarizes serde row seen) (before : seen <+: content) :
    Summarizes serde row (content.take row.indexedOffset) := by
  have same : content.take row.indexedOffset =
      Framing.unframe newline (Framing.frames newline seen) := by
    obtain ⟨more, rfl⟩ := before
    rw [summary.offset, List.take_append_of_le_length (Framing.framedLength_le newline seen),
      Framing.take_framedLength]
  have frames : Framing.frames newline (content.take row.indexedOffset) =
      Framing.frames newline seen := by
    rw [same]
    have free : ∀ frame ∈ Framing.frames newline seen, newline ∉ frame := fun _ =>
      Framing.not_mem_of_mem_frames newline
    have back := Framing.frames_unframe_append newline free []
    rwa [List.append_nil, Framing.frames_nil, List.append_nil] at back
  refine ⟨?_, ?_, ?_⟩
  · rw [Framing.framedLength, frames]
    exact summary.offset
  · rw [frames, summary.lines]
  · rw [hasPresentEit, frames, summary.program, hasPresentEit]

variable {crates : Crates} {archiveRoot : String}

/-- The loop over lines advances by the lines, and knows a program from the first present EIT
on. -/
theorem foldl_ingestLine (crates : Crates) (file : FileIdentity) (state : ScanState)
    (lines : List (List UInt8)) :
    (lines.foldl (ingestLine crates file) state).pos =
        state.pos + (Framing.unframe newline lines).length ∧
      (lines.foldl (ingestLine crates file) state).lineNo = state.lineNo + lines.length ∧
        (lines.foldl (ingestLine crates file) state).programId.isSome =
          (state.programId.isSome || lines.any (isPresentEitLine crates.serde)) := by
  induction lines generalizing state with
  | nil => simp
  | cons line more ih =>
      have step : (ingestLine crates file state line).pos = state.pos + (line.length + 1) ∧
          (ingestLine crates file state line).lineNo = state.lineNo + 1 ∧
            (ingestLine crates file state line).programId.isSome =
              (state.programId.isSome || isPresentEitLine crates.serde line) := by
        rw [ingestLine_eq, isPresentEitLine]
        cases lineRecord crates.serde line with
        | skipped => simp
        | eit eit => simp
        | caption caption => cases state.programId <;> simp
      obtain ⟨pos, lineNo, program⟩ := ih (ingestLine crates file state line)
      rw [List.foldl_cons, pos, lineNo, program, step.1, step.2.1, step.2.2,
        Framing.unframe_cons]
      refine ⟨?_, ?_, ?_⟩
      · simp only [List.length_append, List.length_cons]
        omega
      · rw [List.length_cons]
        omega
      · rw [List.any_cons, Bool.or_assoc]

namespace Scanning

variable {file : FileIdentity} {state : ScanState}

/-- Lines without a present EIT leave the programs and the rows of the files alone. -/
theorem run_of_no_eit (scanning : Scanning crates archiveRoot file state)
    {lines : List (List UInt8)} (none : lines.any (isPresentEitLine crates.serde) = false) :
    (lines.foldl (ingestLine crates file) state).db.programs = state.db.programs ∧
      (lines.foldl (ingestLine crates file) state).db.indexedFiles = state.db.indexedFiles := by
  induction lines generalizing state with
  | nil => exact ⟨rfl, rfl⟩
  | cons line more ih =>
      rw [List.any_cons, Bool.or_eq_false_iff] at none
      obtain ⟨programs, rows⟩ := ih (scanning.step line) none.2
      have step : (ingestLine crates file state line).db.programs = state.db.programs ∧
          (ingestLine crates file state line).db.indexedFiles = state.db.indexedFiles := by
        have line' := none.1
        rw [isPresentEitLine] at line'
        rw [ingestLine_eq]
        cases record : lineRecord crates.serde line with
        | skipped => exact ⟨rfl, rfl⟩
        | eit eit => simp [record] at line'
        | caption caption =>
            cases known : state.programId with
            | none => exact ⟨rfl, rfl⟩
            | some id =>
                simp only
                rw [insertCaptionLine_of_fresh crates.unicode (scanning.fresh_key known)]
                exact ⟨rfl, rfl⟩
      rw [List.foldl_cons, programs, rows]
      exact step

/-- The row of another path is kept or demoted. -/
theorem run_indexed (scanning : Scanning crates archiveRoot file state)
    (lines : List (List UInt8)) (other : String) :
    (lines.foldl (ingestLine crates file) state).db.indexedFile other =
        state.db.indexedFile other ∨
      ∃ old row, state.db.indexedFile other = some old ∧ row.status = .duplicate ∧
        (lines.foldl (ingestLine crates file) state).db.indexedFile other = some row := by
  induction lines generalizing state with
  | nil => exact .inl rfl
  | cons line more ih =>
      have step : (ingestLine crates file state line).db.indexedFile other =
            state.db.indexedFile other ∨
          ∃ old row, state.db.indexedFile other = some old ∧ row.status = .duplicate ∧
            (ingestLine crates file state line).db.indexedFile other = some row := by
        rw [ingestLine_eq]
        cases record : lineRecord crates.serde line with
        | skipped => exact .inl rfl
        | eit eit =>
            have upserted :=
              (upsertProgram_spec scanning.tables scanning.linked.identified scanning.own eit).2
            simp only
            rw [upserted.indexed]
            split
            · cases found : state.db.indexedFile other with
              | none => exact .inl rfl
              | some old => exact .inr ⟨old, _, rfl, rfl, rfl⟩
            · exact .inl rfl
        | caption caption =>
            cases known : state.programId with
            | none => exact .inl rfl
            | some id =>
                simp only
                rw [insertCaptionLine_of_fresh crates.unicode (scanning.fresh_key known)]
                exact .inl rfl
      rw [List.foldl_cons]
      rcases ih (scanning.step line) with kept | ⟨old, row, before, status, after⟩
      · rw [kept]
        exact step
      · rcases step with same | ⟨first, second, present, _, _⟩
        · exact .inr ⟨old, row, same ▸ before, status, after⟩
        · exact .inr ⟨first, row, present, status, after⟩

end Scanning

variable {db after : SearchDb} {path : String} {access : FileAccess} {file : FileIdentity}
  {metadata : ArchiveFileMetadata} {content : List UInt8}

/-- What the row of a path is after a transaction that found `content` in the file, of which
`stat` had seen the first `sizeBytes` bytes. -/
inductive Progress (serde : SerdeJson) (db : SearchDb) (file : FileIdentity) (sizeBytes : ℕ)
    (content : List UInt8) (row : IndexedFileRow) : Prop where
  | sticky : db.indexedFile file.path = some row → row.status ≠ .ok →
      Progress serde db file sizeBytes content row
  | lost (winner : ProgramRow) : row.status = .duplicate → db.indexedFile file.path = none →
      winner ∈ db.programs → winner.group = file.group → file.path < winner.path →
      Progress serde db file sizeBytes content row
  | shrunk (old : IndexedFileRow) : row.status = .error →
      db.indexedFile file.path = some old → old.status = .ok → sizeBytes < old.indexedOffset →
      Progress serde db file sizeBytes content row
  | read (seen : List UInt8) : row.status = .ok → content.take sizeBytes <+: seen →
      seen <+: content → Summarizes serde row seen →
      Progress serde db file sizeBytes content row

/-- A scan that starts where a prefix ends sums up the whole content. -/
theorem summarizes_commitScan (crates : Crates) (db : SearchDb) (file : FileIdentity)
    (metadata : ArchiveFileMetadata) {seen content : List UInt8} (before : seen <+: content)
    {programId : Option ℕ} (known : programId.isSome = hasPresentEit crates.serde seen) :
    ∃ row, (commitScan crates db file metadata content programId
        (Framing.framedLength newline seen) (Framing.frames newline seen).length).indexedFile
          file.path = some row ∧
      row.status = .ok ∧ Summarizes crates.serde row content := by
  obtain ⟨more, rfl⟩ := before
  obtain ⟨pos, lineNo, program⟩ := foldl_ingestLine crates file
    ⟨db, programId, Framing.framedLength newline seen, (Framing.frames newline seen).length⟩
    (Framing.frames newline (Framing.residue newline seen ++ more))
  unfold commitScan
  rw [Framing.drop_framedLength_append]
  generalize (Framing.frames newline (Framing.residue newline seen ++ more)).foldl
    (ingestLine crates file) _ = state at pos lineNo program ⊢
  refine ⟨⟨file.path, state.programId, metadata.sizeBytes, metadata.mtime, state.pos,
    state.lineNo, .ok, none⟩, ?_, rfl, ?_, ?_, ?_⟩
  · rw [indexedFile_upsertIndexedFile, if_pos rfl]
  · rw [Framing.framedLength_append]
    exact pos
  · rw [Framing.frames_append, List.length_append]
    exact lineNo
  · rw [hasPresentEit_append, ← known]
    exact program

/-- The row of a file that has shrunk. -/
theorem indexedFile_markIndexingError {row : IndexedFileRow}
    (found : db.indexedFile path = some row) (programId : Option ℕ) (sizeBytes mtime : ℕ)
    (lastError : String) :
    (db.markIndexingError path programId sizeBytes mtime lastError).indexedFile path =
      some { row with status := .error, sizeBytes, mtime, lastError := some lastError } := by
  unfold SearchDb.markIndexingError
  rw [SearchDb.indexedFile_upsertIndexedFiles, if_pos rfl, found]
  · rfl
  · exact fun _ _ => rfl

/-- A transaction over a recognized path leaves a row for it. -/
theorem Ingested.isSome_indexedFile {access : FileAccess} {after : SearchDb}
    (ingested : Ingested crates archiveRoot db path access after)
    (identified : identify crates archiveRoot path = some file) :
    (after.indexedFile path).isSome = true := by
  cases ingested with
  | unidentified skipped =>
      rw [skipped] at identified
      cases identified
  | sticky row found _ => rw [found]; rfl
  | current row metadata _ found _ _ => rw [found]; rfl
  | lost _ winner row _ _ _ _ own _ _ =>
      rw [SearchDb.indexedFile_upsertIndexedFiles _ _ _ (fun old same => same.symm),
        if_pos own.symm]
      rfl
  | shrunk row metadata lastError _ found _ _ =>
      rw [indexedFile_markIndexingError found]
      rfl
  | scanned file metadata content programId startOffset lineNo _ own _ _ _ =>
      rw [commitScan, indexedFile_upsertIndexedFile, if_pos own.symm]
      rfl

/-- A readable file with a recognized path is indexed. -/
theorem ingestFile_of_readable (identified : identify crates archiveRoot path = some file)
    (db : SearchDb) (metadata : ArchiveFileMetadata) (content : List UInt8) :
    ∃ after, ingestFile crates archiveRoot db path ⟨some metadata, some content⟩ = .ok after ∧
      (after.indexedFile path).isSome = true := by
  have succeeds : ∃ after,
      ingestFile crates archiveRoot db path ⟨some metadata, some content⟩ = .ok after := by
    unfold ingestFile
    simp only [identified]
    cases db.indexedFile path with
    | none =>
        rcases markRecordingStartedAtCollisionLoser_cases db file metadata.sizeBytes
          metadata.mtime with ⟨proceeds, _⟩ | ⟨winner, _, _, _, marked⟩
        · rw [path_of_identify identified] at proceeds
          simp only [proceeds, ingestTail]
          exact ⟨_, rfl⟩
        · rw [path_of_identify identified] at marked
          simp only [marked]
          exact ⟨_, rfl⟩
    | some row =>
        simp only [ingestTail]
        split_ifs <;> exact ⟨_, rfl⟩
  obtain ⟨after, ran⟩ := succeeds
  exact ⟨after, ran, (ingestFile_cases ran).isSome_indexedFile identified⟩

/-- A transaction brings the row of its path up to what it has found. -/
theorem Ingested.progress (ingested : Ingested crates archiveRoot db file.path access after)
    (wellFormed : WellFormed crates archiveRoot db)
    (identified : identify crates archiveRoot file.path = some file)
    (stat : access.metadata = some metadata) (read : access.content = some content)
    (earlier : ∀ row, db.indexedFile file.path = some row → row.status = .ok →
      ReadUpTo crates.serde row content) :
    ∃ row, after.indexedFile file.path = some row ∧
      Progress crates.serde db file metadata.sizeBytes content row := by
  cases ingested with
  | unidentified skipped =>
      rw [identified] at skipped
      cases skipped
  | sticky row found status => exact ⟨row, found, .sticky found status⟩
  | current row metadata' stat' found ok equal =>
      obtain rfl : metadata = metadata' := Option.some.inj (stat.symm.trans stat')
      obtain ⟨seen, before, summary⟩ := earlier row found ok
      refine ⟨row, found, .read (content.take metadata.sizeBytes) ok List.prefix_rfl
        (List.take_prefix _ _) ?_⟩
      rw [equal]
      exact summary.of_length before
  | lost own winner row known absent group beaten path none status =>
      obtain rfl : own = file := Option.some.inj (known.symm.trans identified)
      obtain ⟨member, same⟩ := (mem_groupProgram wellFormed.tables).mp group
      refine ⟨row, ?_, .lost winner status absent member same beaten⟩
      rw [SearchDb.indexedFile_upsertIndexedFiles _ _ _ fun _ equal => equal.symm, if_pos path.symm,
        absent]
      rfl
  | shrunk row metadata' lastError stat' found ok smaller =>
      obtain rfl : metadata = metadata' := Option.some.inj (stat.symm.trans stat')
      exact ⟨_, indexedFile_markIndexingError found _ _ _ _, .shrunk row rfl found ok smaller⟩
  | scanned own metadata' content' programId startOffset lineNo known path stat' read' starts =>
      obtain rfl : own = file := Option.some.inj (known.symm.trans identified)
      obtain rfl : content = content' := Option.some.inj (read.symm.trans read')
      have summarized : ∃ seen, seen <+: content ∧ startOffset = Framing.framedLength newline seen ∧
          lineNo = (Framing.frames newline seen).length ∧
            programId.isSome = hasPresentEit crates.serde seen := by
        cases starts with
        | resume row found ok _ =>
            obtain ⟨seen, before, summary⟩ := earlier row found ok
            exact ⟨seen, before, summary.offset, summary.lines, summary.program⟩
        | fresh _ _ => exact ⟨[], List.nil_prefix, rfl, rfl, rfl⟩
      obtain ⟨seen, before, rfl, rfl, program⟩ := summarized
      obtain ⟨row, found, ok, summary⟩ :=
        summarizes_commitScan crates db own metadata' before program
      exact ⟨row, found, .read content ok (List.take_prefix _ _) List.prefix_rfl summary⟩

/-- The complete lines that a successful `ingest_file` parses. -/
def linesRead (crates : Crates) (archiveRoot : String) (db : SearchDb) (path : String)
    (access : FileAccess) : List (List UInt8) :=
  match identify crates archiveRoot path, access.metadata, access.content with
  | some file, some metadata, some content =>
      match db.indexedFile path with
      | some row =>
          if row.status ≠ .ok ∨ metadata.sizeBytes ≤ row.indexedOffset then []
          else Framing.frames newline (content.drop row.indexedOffset)
      | none =>
          if ∃ program ∈ db.groupProgram file.stream file.recordingStartedAt, path < program.path
          then []
          else Framing.frames newline content
  | _, _, _ => []

/-- Whether a successful `ingest_file` parses a present EIT. -/
def readsPresentEit (crates : Crates) (archiveRoot : String) (db : SearchDb) (path : String)
    (access : FileAccess) : Bool :=
  (linesRead crates archiveRoot db path access).any (isPresentEitLine crates.serde)

/-- A scan parses the lines behind the position where it starts. -/
theorem linesRead_of_startsAt (identified : identify crates archiveRoot file.path = some file)
    (stat : access.metadata = some metadata) (read : access.content = some content)
    {programId : Option ℕ} {startOffset lineNo : ℕ}
    (starts : StartsAt db file metadata programId startOffset lineNo) :
    linesRead crates archiveRoot db file.path access =
      Framing.frames newline (content.drop startOffset) := by
  unfold linesRead
  simp only [identified, stat, read]
  cases starts with
  | resume row found ok larger => simp [found, ok, not_le_of_gt larger]
  | fresh absent best =>
      simp only [absent, List.drop_zero, ite_eq_right_iff]
      rintro ⟨program, group, beaten⟩
      exact absurd beaten (not_lt_of_ge (best program group))

/-- What a transaction does to the group of its file: without a present EIT nothing, and with one
the file owns the program, and the rows of other paths are kept or demoted. -/
inductive Ownership (db : SearchDb) (file : FileIdentity) (after : SearchDb) : Bool → Prop where
  | kept : after.programs = db.programs →
      (∀ other, other ≠ file.path → after.indexedFile other = db.indexedFile other) →
      Ownership db file after false
  | taken (program : ProgramRow) (row : IndexedFileRow) :
      program ∈ after.programs → program.path = file.path →
      after.indexedFile file.path = some row → row.status = .ok →
      (∀ other, other ≠ file.path → after.indexedFile other = db.indexedFile other ∨
        ∃ old row, db.indexedFile other = some old ∧ row.status = .duplicate ∧
          after.indexedFile other = some row) →
      Ownership db file after true

/-- The rows of other paths are kept or demoted. -/
theorem Ownership.rows {taken : Bool} (ownership : Ownership db file after taken)
    {other : String} (different : other ≠ file.path) :
    after.indexedFile other = db.indexedFile other ∨
      ∃ old row, db.indexedFile other = some old ∧ row.status = .duplicate ∧
        after.indexedFile other = some row := by
  cases ownership with
  | kept _ rows => exact .inl (rows other different)
  | taken _ _ _ _ _ _ rows => exact rows other different

/-- A transaction parses no line and touches nothing but the row of its path, or it commits a
scan. -/
inductive Parsed (crates : Crates) (archiveRoot : String) (db : SearchDb) (file : FileIdentity)
    (access : FileAccess) (after : SearchDb) : Prop where
  | idle : linesRead crates archiveRoot db file.path access = [] →
      after.programs = db.programs → after.captionLines = db.captionLines →
      (∀ other, other ≠ file.path → after.indexedFile other = db.indexedFile other) →
      Parsed crates archiveRoot db file access after
  | scan (metadata : ArchiveFileMetadata) (content : List UInt8) (programId : Option ℕ)
      (startOffset lineNo : ℕ) : StartsAt db file metadata programId startOffset lineNo →
      linesRead crates archiveRoot db file.path access =
        Framing.frames newline (content.drop startOffset) →
      after = commitScan crates db file metadata content programId startOffset lineNo →
      Parsed crates archiveRoot db file access after

theorem Ingested.parsed (ingested : Ingested crates archiveRoot db file.path access after)
    (identified : identify crates archiveRoot file.path = some file) :
    Parsed crates archiveRoot db file access after := by
  cases ingested with
  | unidentified skipped => exact .idle (by simp [linesRead, skipped]) rfl rfl fun _ _ => rfl
  | sticky row found status =>
      refine .idle ?_ rfl rfl fun _ _ => rfl
      unfold linesRead
      split <;> simp [found, status]
  | current row metadata stat found _ equal =>
      refine .idle ?_ rfl rfl fun _ _ => rfl
      unfold linesRead
      split
      · next stat' _ =>
          rw [stat, Option.some.injEq] at stat'
          simp [found, ← stat', equal]
      · rfl
  | lost own winner row known absent group beaten path _ _ =>
      refine .idle ?_ rfl rfl fun other different => ?_
      · unfold linesRead
        split
        · next known' _ _ =>
            rw [known, Option.some.injEq] at known'
            subst known'
            rw [absent]
            exact if_pos ⟨winner, group, beaten⟩
        · rfl
      · rw [SearchDb.indexedFile_upsertIndexedFiles _ _ _ fun _ equal => equal.symm,
          if_neg (by rwa [path])]
  | shrunk row metadata lastError stat found _ smaller =>
      refine .idle ?_ rfl rfl fun other different => ?_
      · unfold linesRead
        split
        · next stat' _ =>
            rw [stat, Option.some.injEq] at stat'
            simp [found, ← stat', smaller.le]
        · rfl
      · unfold SearchDb.markIndexingError
        rw [SearchDb.indexedFile_upsertIndexedFiles]
        · exact if_neg different
        · exact fun _ _ => rfl
  | scanned own metadata content programId startOffset lineNo known path stat read starts =>
      obtain rfl : own = file := Option.some.inj (known.symm.trans identified)
      exact .scan metadata content programId startOffset lineNo starts
        (linesRead_of_startsAt identified stat read starts) rfl

theorem Ingested.ownership (ingested : Ingested crates archiveRoot db file.path access after)
    (wellFormed : WellFormed crates archiveRoot db)
    (identified : identify crates archiveRoot file.path = some file) :
    Ownership db file after (readsPresentEit crates archiveRoot db file.path access) := by
  cases ingested.parsed identified with
  | idle none programs _ rows =>
      rw [readsPresentEit, none]
      exact .kept programs rows
  | scan metadata content programId startOffset lineNo starts lines committed =>
      subst committed
      have scanning := wellFormed.scanning identified starts
      have rows (other : String) (different : other ≠ file.path) :
          (commitScan crates db file metadata content programId startOffset lineNo).indexedFile
            other = ((Framing.frames newline (content.drop startOffset)).foldl
              (ingestLine crates file) ⟨db, programId, startOffset, lineNo⟩).db.indexedFile
                other := by
        unfold commitScan
        rw [indexedFile_upsertIndexedFile, if_neg different]
      rw [readsPresentEit, lines]
      cases eit : (Framing.frames newline (content.drop startOffset)).any
          (isPresentEitLine crates.serde) with
      | false =>
          obtain ⟨programs, files⟩ := scanning.run_of_no_eit eit
          refine .kept programs fun other different => ?_
          rw [rows other different, SearchDb.indexedFile, files]
          rfl
      | true =>
          have program := (foldl_ingestLine crates file ⟨db, programId, startOffset, lineNo⟩
            (Framing.frames newline (content.drop startOffset))).2.2
          rw [eit, Bool.or_true] at program
          obtain ⟨id, found⟩ := Option.isSome_iff_exists.mp program
          obtain ⟨row, member, _, same⟩ := (scanning.run _).exists_program found
          obtain ⟨indexed, there, ok⟩ : ∃ indexed, (commitScan crates db file metadata content
              programId startOffset lineNo).indexedFile file.path = some indexed ∧
                indexed.status = .ok := by
            unfold commitScan
            rw [indexedFile_upsertIndexedFile, if_pos rfl]
            exact ⟨_, rfl, rfl⟩
          refine .taken row indexed member same there ok fun other different => ?_
          rw [rows other different]
          exact scanning.run_indexed _ other

end AribcapDb
